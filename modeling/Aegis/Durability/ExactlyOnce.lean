/-
  THE TABLES OF ACCEPTED COMMANDS AND THE LEDGER AGREE, in every state a run of commands reaches.

  `Counted` says it: a request id has an idempotency record exactly when it has one requested event,
  one start message and one run, and a command id has an inbox record exactly when it has one
  `*_requested` event and one message to the workflow engine.  One lemma per kind of append keeps it;
  the laws about repetition and reuse then compare two calls of a history, as the outbox laws do.

  Identifiers are digests, so "one event of this request" means nothing unless different requests
  have different references: the hash is collision free on the texts the run derives its
  identifiers from (`stableTexts`).
-/
import Mathlib
import Aegis.Durability.Commands

namespace Aegis

namespace Durability

variable {sha : Sha256} {s : Store}

/-! ## The texts behind the identifiers -/

/-- The texts a call derives its identifiers and fingerprints from. -/
def Op.stableTexts (sha : Sha256) : Op → List String
  | .acceptRun identity request waitForSignal _ =>
    [requestText request waitForSignal,
     joinParts [identity.tenantId.val, identity.requestId.val],
     joinParts [identity.tenantId.val, request.incidentId.val, identity.requestId.val],
     joinParts [(runIdOf sha identity request).val, "requested"],
     joinParts [(runIdOf sha identity request).val, "temporal-start"]]
  | .acceptSignal _ command _ _ =>
    [joinParts [command.runId.val, command.commandId.val],
     joinParts [command.runId.val, command.commandType.eventType.val, command.commandId.val]]
  | .recordTransition _ runId eventType operationId _ _ _ _ _ =>
    [joinParts [runId, eventType, operationId]]
  | _ => []

def stableTexts (sha : Sha256) (ops : List Op) : Set String :=
  { text | ∃ op ∈ ops, text ∈ op.stableTexts sha }

/-- References of different requests differ. -/
theorem requestRef_inj {texts : Set String} (hfree : sha.CollisionFree texts) {t q t' q' : Identifier}
    (h : joinParts [t.val, q.val] ∈ texts) (h' : joinParts [t'.val, q'.val] ∈ texts)
    (heq : requestRef sha t q = requestRef sha t' q') : t = t' ∧ q = q' := by
  have hparts : [t.val, q.val] = [t'.val, q'.val] := by
    refine stableId_inj hfree (by decide) ?_ ?_ (by simp) (by simp) h h' (Subtype.mk.inj heq)
    · intro p hp
      rcases List.mem_pair.mp hp with rfl | rfl
      · exact t.nulFree
      · exact q.nulFree
    · intro p hp
      rcases List.mem_pair.mp hp with rfl | rfl
      · exact t'.nulFree
      · exact q'.nulFree
  obtain ⟨ht, hq⟩ := List.cons.inj hparts
  exact ⟨Subtype.ext ht, Subtype.ext (List.cons.inj hq).1⟩

/-- The members of a request text, in order. -/
theorem requestText_keys (request : InvestigationRequest) (wait : Bool) :
    sortKeys (.obj [("request", request.modelDump), ("wait_for_signal", .bool wait)])
      = .obj [("request", .obj [("alert", .obj [
            ("failure_rate", .float request.alert.failureRate),
            ("observed_at", .str request.alert.observedAt.jsonText),
            ("region", .str request.alert.region.val), ("service", .str "checkout-api"),
            ("signal", .str "checkout_failure_rate"),
            ("threshold", .float request.alert.threshold)]),
          ("incident_id", .str request.incidentId.val)]), ("wait_for_signal", .bool wait)] := by
  rw [InvestigationRequest.modelDump]
  simp only [sortKeys, sortKeysFields, sortFields]
  simp [List.insertionSort, List.orderedInsert]

/-- The text of a request determines the request and the flag. -/
theorem requestText_inj {request request' : InvestigationRequest} {wait wait' : Bool}
    (h : requestText request wait = requestText request' wait') :
    request = request' ∧ wait = wait' := by
  have hsame := canonicalJson_inj.mp h
  rw [Json.Same, requestText_keys, requestText_keys] at hsame
  simp only [Json.obj.injEq, List.cons.injEq, Prod.mk.injEq, true_and, and_true, Json.str.injEq,
    Json.float.injEq, Json.bool.injEq] at hsame
  obtain ⟨⟨⟨hrate, hat, hregion, hthreshold⟩, hincident⟩, hwait⟩ := hsame
  refine ⟨?_, hwait⟩
  rcases request with ⟨incident, region, observedAt, rate, threshold⟩
  rcases request' with ⟨incident', region', observedAt', rate', threshold'⟩
  obtain rfl := Subtype.ext hincident
  obtain rfl := Subtype.ext hregion
  obtain rfl := Datetime.jsonText_inj hat
  obtain rfl := hrate
  obtain rfl := hthreshold
  rfl

/-! ## The invariant -/

/-- The tables of accepted commands and the ledger agree. -/
structure Counted (sha : Sha256) (texts : Set String) (s : Store) : Prop where
  requests : ∀ t q : Identifier, joinParts [t.val, q.val] ∈ texts →
    requestedEvents s t.val (requestRef sha t q) = (s.idempotency (t.val, q.val)).isSome.toNat ∧
      startMessages s t.val (requestRef sha t q) = (s.idempotency (t.val, q.val)).isSome.toNat
  accepted : ∀ (t q : Identifier) entry, s.idempotency (t.val, q.val) = some entry →
    ∃ run, s.runs (t.val, entry.runId.val) = some run ∧ run.runId = entry.runId ∧
      run.requestRef = requestRef sha t q
  runs : ∀ t r run, s.runs (t, r) = some run → ∃ t' q' : Identifier, ∃ entry, t'.val = t ∧
    joinParts [t'.val, q'.val] ∈ texts ∧ run.requestRef = requestRef sha t' q' ∧
    s.idempotency (t, q'.val) = some entry ∧ entry.runId.val = r
  commands : ∀ t (c : Identifier),
    commandEvents s t c = (s.deliveries.lookup (t, .inbox, c.val)).isSome.toNat ∧
      commandMessages s t c = (s.deliveries.lookup (t, .inbox, c.val)).isSome.toNat ∧
      inboxRecords s t c = (s.deliveries.lookup (t, .inbox, c.val)).isSome.toNat
  resumes : ∀ t r, resumeCount s.deliveries t r ≤ maxResumeCommands

theorem counted_empty (sha : Sha256) (texts : Set String) : Counted sha texts Store.empty where
  requests _ _ _ := ⟨rfl, rfl⟩
  accepted _ _ _ h := absurd h (by simp [Store.empty])
  runs _ _ _ h := absurd h (by simp [Store.empty])
  commands _ _ := ⟨rfl, rfl, rfl⟩
  resumes _ _ := Nat.zero_le _

/-! ### Calls that record nothing -/

/-- A property of the message of a record. -/
def MessageProperty (p : DeliveryRecord → Bool) : Prop := ∀ r r', r.message = r'.message → p r = p r'

theorem isStart_message (t : String) (ref : Identifier) : MessageProperty (isStart t ref) := by
  intro r r' h
  simp only [DeliveryRecord.message, Message.mk.injEq] at h
  obtain ⟨h1, h2, h3, h4, h5, h6⟩ := h
  simp only [isStart, h1, h3, h5, h6]

theorem isCommandMessage_message (t : String) (c : Identifier) :
    MessageProperty (isCommandMessage t c) := by
  intro r r' h
  simp only [DeliveryRecord.message, Message.mk.injEq] at h
  obtain ⟨h1, h2, h3, h4, h5, h6⟩ := h
  simp only [isCommandMessage, h1, h3, h4, h6]

theorem isInbox_message (t : String) (c : Identifier) : MessageProperty (isInbox t c) := by
  intro r r' h
  simp only [DeliveryRecord.message, Message.mk.injEq] at h
  obtain ⟨h1, h2, h3, h4, h5, h6⟩ := h
  simp only [isInbox, h1, h2, h3]

theorem isResumeOf_message (t r : String) : MessageProperty (isResumeOf t r) := by
  intro r r' h
  simp only [DeliveryRecord.message, Message.mk.injEq] at h
  obtain ⟨h1, h2, h3, h4, h5, h6⟩ := h
  simp only [isResumeOf, h1, h3, h5, h6]

theorem Quiet.count {s' : Store} (h : Quiet s s') {p : DeliveryRecord → Bool}
    (hp : MessageProperty p) : Table.count p s'.deliveries = Table.count p s.deliveries := by
  refine Table.count_congr fun k => ?_
  have hk := h.messages k
  cases hafter : s'.deliveries.lookup k with
  | none =>
    cases hbefore : s.deliveries.lookup k with
    | none => rfl
    | some r => rw [hafter, hbefore] at hk; cases hk
  | some r' =>
    cases hbefore : s.deliveries.lookup k with
    | none => rw [hafter, hbefore] at hk; cases hk
    | some r =>
      rw [hafter, hbefore] at hk
      exact congrArg some (hp r' r (Option.some.inj hk))

theorem Quiet.lookup_isSome {s' : Store} (h : Quiet s s') (k : DeliveryKey) :
    (s'.deliveries.lookup k).isSome = (s.deliveries.lookup k).isSome := by
  rw [← Option.isSome_map (f := DeliveryRecord.message), h.messages k, Option.isSome_map]

theorem Counted.quiet {texts : Set String} {s' : Store} (hc : Counted sha texts s) (h : Quiet s s') :
    Counted sha texts s' where
  requests t q htext := by
    rw [requestedEvents, startMessages, h.events, h.idempotency, h.count (isStart_message _ _)]
    exact hc.requests t q htext
  accepted t q entry he := by
    rw [h.idempotency] at he
    rw [h.runs]
    exact hc.accepted t q entry he
  runs t r run hr := by
    rw [h.runs] at hr
    rw [h.idempotency]
    exact hc.runs t r run hr
  commands t c := by
    rw [commandEvents, commandMessages, inboxRecords, h.events, h.lookup_isSome,
      h.count (isCommandMessage_message _ _), h.count (isInbox_message _ _)]
    exact hc.commands t c
  resumes t r := by
    rw [resumeCount, h.count (isResumeOf_message _ _)]
    exact hc.resumes t r

/-! ### Appends -/

theorem countP_concat {α : Type} (p : α → Bool) (l : List α) (a : α) :
    (l ++ [a]).countP p = l.countP p + (p a).toNat := by
  rw [List.countP_append, List.countP_singleton]
  cases p a with
  | false => rfl
  | true => rfl

/-- Counting in the events of one tenant after an event of another. -/
theorem countP_update (events : String → List ApplicationEvent) (t u : String)
    (e : ApplicationEvent) (p : ApplicationEvent → Bool) :
    (Function.update events t (events t ++ [e]) u).countP p
      = (events u).countP p + (decide (u = t) && p e).toNat := by
  by_cases hu : u = t
  · subst hu
    rw [Function.update_self, countP_concat]
    simp
  · rw [Function.update_of_ne hu]
    simp [hu]

/-- A text of a payload read back as an identifier. -/
theorem payloadIdentifier_str {payload : Fields} {key : String} {i : Identifier}
    (h : payload.lookup key = some (.str i.val)) : payloadIdentifier payload key = some i := by
  rw [payloadIdentifier, h]
  show Json.identifier? (.str i.val) = some i
  unfold Json.identifier?
  simp only [Json.pyStr]
  rw [dif_pos i.property]

/-- The drafts of a new run. -/
theorem runDrafts_ok {identity : IdentityContext} {request : InvestigationRequest}
    {waitForSignal : Bool} {traceRef : String} {now : Datetime} {drafts : EventDraft × OutboxDraft}
    (h : runDrafts sha identity request waitForSignal traceRef now = .ok drafts) :
    (drafts.1.eventType.val = "investigation.requested" ∧
      drafts.1.correlationRef = requestRefOf sha identity ∧ drafts.1.causationRef = none ∧
      drafts.1.payload.lookup "run_id" = some (.str (runIdOf sha identity request).val) ∧
      drafts.1.payload.lookup "request_ref" = some (.str (requestRefOf sha identity).val)) ∧
    (drafts.2.messageType.val = "investigation.start" ∧
      drafts.2.payload.lookup "request_ref" = some (.str (requestRefOf sha identity).val) ∧
      drafts.2.payload.lookup "command_ref" = none) := by
  unfold runDrafts at h
  obtain ⟨draft, hdraft, h⟩ := except_bind_ok.mp h
  obtain ⟨message, hmessage, h⟩ := except_bind_ok.mp h
  obtain rfl := Except.ok.inj h
  obtain ⟨-, htype, -, -, hcorrelation, hcausation, -, hpayload⟩ := EventDraft.make_ok hdraft
  obtain ⟨-, -, hmtype, -, hmpayload⟩ := OutboxDraft.make_ok hmessage
  dsimp only
  rw [htype, hcorrelation, hcausation, hpayload, hmtype, hmpayload]
  refine ⟨⟨rfl, rfl, rfl, ?_, ?_⟩, rfl, ?_, ?_⟩
  · simp [Fields.of, -AList.insert_empty]
  · simp [Fields.of, -AList.insert_empty]
  · simp [Fields.of, -AList.insert_empty]
  · simp [Fields.of, -AList.insert_empty]

/-- The drafts of a signal. -/
theorem signalDrafts_ok {identity : IdentityContext} {command : SignalCommand} {current : RunView}
    {availableAt occurredAt : Datetime} {drafts : InboxDraft × OutboxDraft × EventDraft}
    (h : signalDrafts sha identity command current availableAt occurredAt = .ok drafts) :
    (drafts.1.messageId = command.commandId ∧
      drafts.1.messageType = command.commandType.messageType ∧
      drafts.1.payload.lookup "run_id" = some (.str command.runId.val)) ∧
    (drafts.2.1.destination.val = "temporal" ∧
      drafts.2.1.messageType = command.commandType.eventType ∧
      drafts.2.1.payload.lookup "command_ref" = some (.str command.commandId.val)) ∧
    (drafts.2.2.eventType = command.commandType.eventType ∧
      drafts.2.2.causationRef = some command.commandId) := by
  unfold signalDrafts at h
  obtain ⟨inbox, hinbox, h⟩ := except_bind_ok.mp h
  obtain ⟨message, hmessage, h⟩ := except_bind_ok.mp h
  obtain ⟨draft, hdraft, h⟩ := except_bind_ok.mp h
  obtain rfl := Except.ok.inj h
  obtain ⟨hid, -, hitype, hipayload⟩ := InboxDraft.make_ok hinbox
  obtain ⟨-, hdestination, hmtype, -, hmpayload⟩ := OutboxDraft.make_ok hmessage
  obtain ⟨-, htype, -, -, -, hcausation, -, -⟩ := EventDraft.make_ok hdraft
  dsimp only
  rw [hid, hitype, hipayload, hdestination, hmtype, hmpayload, htype, hcausation]
  refine ⟨⟨rfl, rfl, ?_⟩, ⟨rfl, rfl, ?_⟩, rfl, rfl⟩
  · simp [Fields.of, -AList.insert_empty]
  · simp [Fields.of, -AList.insert_empty]

/-- The draft of a transition has the event type it was given. -/
theorem transitionDraft_ok {runId eventType operationId actorRef requestRef : String}
    {failureCode : Option String} {attributes : Option Fields} {now : Datetime} {draft : EventDraft}
    (h : transitionDraft sha runId eventType operationId actorRef requestRef failureCode attributes
      now = .ok draft) : draft.eventType.val = eventType := by
  unfold transitionDraft at h
  obtain ⟨kind, hkind, h⟩ := except_bind_ok.mp h
  obtain ⟨actor, -, h⟩ := except_bind_ok.mp h
  obtain ⟨request, -, h⟩ := except_bind_ok.mp h
  obtain ⟨operation, -, h⟩ := except_bind_ok.mp h
  rw [(EventDraft.make_ok h).2.1]
  exact Identifier.parse_ok hkind

section Appends

variable {t id : String} {expectedVersion : Int} {drafts : List EventDraft}
  {outbox : List OutboxDraft} {inbox : List InboxDraft} {s' : Store}
  {appended : List ApplicationEvent} {last : ApplicationEvent}
  {projected : String × String → Option RunView}

/-- An append changes no record under a key it does not write. -/
theorem Appended.lookup_of_notMem
    (h : Appended sha t "investigation" id expectedVersion drafts outbox inbox s appended last
      projected s') {k : DeliveryKey}
    (hout : ∀ m ∈ outbox, (last.tenantId.val, Direction.outbox, m.messageId.val) ≠ k)
    (hin : ∀ m ∈ inbox, (last.tenantId.val, Direction.inbox, m.messageId.val) ≠ k) :
    s'.deliveries.lookup k = s.deliveries.lookup k := by
  rw [h.store]
  show (insertDeliveries s.deliveries last.tenantId last.occurredAt outbox inbox).lookup k = _
  rw [insertDeliveries, Table.lookup_insertAll_of_notMem hin, Table.lookup_insertAll_of_notMem hout]

/-- The inbox of an append without inbox records. -/
theorem Appended.lookup_inbox
    (h : Appended sha t "investigation" id expectedVersion drafts outbox [] s appended last
      projected s') (u c : String) :
    s'.deliveries.lookup (u, .inbox, c) = s.deliveries.lookup (u, .inbox, c) := by
  refine h.lookup_of_notMem ?_ (fun m hm => absurd hm List.not_mem_nil)
  intro m _ heq
  cases (Prod.mk.inj (Prod.mk.inj heq).2).1

/-- Recording on a run keeps the agreement of runs and requests. -/
theorem Counted.runs_recorded {texts : Set String} (hc : Counted sha texts s) {key : String × String}
    {current run : RunView} (hidempotency : s'.idempotency = s.idempotency)
    (hcurrent : s.runs key = some current) (hruns : s'.runs = Function.update s.runs key (some run))
    (hsame : run.runId = current.runId ∧ run.requestRef = current.requestRef) :
    (∀ (t q : Identifier) entry, s'.idempotency (t.val, q.val) = some entry →
      ∃ run, s'.runs (t.val, entry.runId.val) = some run ∧ run.runId = entry.runId ∧
        run.requestRef = requestRef sha t q) ∧
    (∀ t r run, s'.runs (t, r) = some run → ∃ t' q' : Identifier, ∃ entry, t'.val = t ∧
      joinParts [t'.val, q'.val] ∈ texts ∧ run.requestRef = requestRef sha t' q' ∧
      s'.idempotency (t, q'.val) = some entry ∧ entry.runId.val = r) := by
  rw [hidempotency, hruns]
  constructor
  · intro t q entry hentry
    obtain ⟨run₀, hrun₀, hid₀, href₀⟩ := hc.accepted t q entry hentry
    by_cases hk : (t.val, entry.runId.val) = key
    · rw [hk] at hrun₀ ⊢
      rw [hcurrent] at hrun₀
      obtain rfl := Option.some.inj hrun₀
      exact ⟨run, Function.update_self .., hsame.1.trans hid₀, hsame.2.trans href₀⟩
    · exact ⟨run₀, by rw [Function.update_of_ne hk]; exact hrun₀, hid₀, href₀⟩
  · intro t r run₁ hrun₁
    by_cases hk : (t, r) = key
    · rw [hk, Function.update_self] at hrun₁
      obtain rfl := Option.some.inj hrun₁
      rw [hsame.2]
      exact hc.runs t r current (hk ▸ hcurrent)
    · rw [Function.update_of_ne hk] at hrun₁
      exact hc.runs t r run₁ hrun₁

/-- A flag that is set once: the count follows it. -/
theorem count_follows {count count' : Nat} {old new : Bool} {p : Prop} [Decidable p]
    (hcount : count = old.toNat) (hstep : count' = count + (decide p).toNat)
    (hset : p → old = false ∧ new = true) (hkeep : ¬p → new = old) : count' = new.toNat := by
  rw [hstep, hcount]
  by_cases hp : p
  · rw [(hset hp).1, (hset hp).2, decide_eq_true hp]; rfl
  · rw [hkeep hp, decide_eq_false hp]; rfl

end Appends

/-! ### A new request -/

/-- What a new run changes, as the invariant sees it. -/
structure RunWritten (sha : Sha256) (identity : IdentityContext) (runId : Identifier)
    (s s' : Store) : Prop where
  absent : s.idempotency (identity.tenantId.val, identity.requestId.val) = none
  idempotency : ∃ fingerprint, s'.idempotency = Function.update s.idempotency
    (identity.tenantId.val, identity.requestId.val) (some { fingerprint, runId })
  run_new : s.runs (identity.tenantId.val, runId.val) = none
  runs : ∃ run, s'.runs = Function.update s.runs (identity.tenantId.val, runId.val) (some run) ∧
    run.runId = runId ∧ run.requestRef = requestRefOf sha identity
  requested : ∀ t ref, requestedEvents s' t ref = requestedEvents s t ref
    + (decide (t = identity.tenantId.val ∧ requestRefOf sha identity = ref)).toNat
  starts : ∀ t ref, startMessages s' t ref = startMessages s t ref
    + (decide (t = identity.tenantId.val ∧ requestRefOf sha identity = ref)).toNat
  commandEvents : ∀ t c, commandEvents s' t c = commandEvents s t c
  commandMessages : ∀ t c, commandMessages s' t c = commandMessages s t c
  inboxRecords : ∀ t c, inboxRecords s' t c = inboxRecords s t c
  resumes : ∀ t r, resumeCount s'.deliveries t r = resumeCount s.deliveries t r
  lookup : ∀ t c, s'.deliveries.lookup (t, .inbox, c) = s.deliveries.lookup (t, .inbox, c)

/-- A start message is one of its request. -/
theorem isStart_outboxRecord {tenant ref' : Identifier} {m : OutboxDraft}
    (htype : m.messageType.val = "investigation.start")
    (href : m.payload.lookup "request_ref" = some (.str ref'.val)) (t : String) (ref : Identifier) :
    isStart t ref (outboxRecord tenant m) = decide (t = tenant.val ∧ ref' = ref) := by
  rw [Bool.eq_iff_iff]
  simp only [isStart, outboxRecord, htype, payloadHas, href, Bool.and_eq_true, beq_iff_eq,
    decide_eq_true_eq, and_true, Subtype.ext_iff]
  exact and_congr_left' eq_comm

theorem NewRun.written (hinv : LedgerInvariant sha s) {identity : IdentityContext}
    {request : InvestigationRequest} {waitForSignal : Bool} {now : Datetime} {traceRef : String}
    {drafts : EventDraft × OutboxDraft} {appended : List ApplicationEvent} {last : ApplicationEvent}
    {projected : String × String → Option RunView} {run : RunView} {s' : Store}
    (h : NewRun sha identity request waitForSignal now s traceRef drafts appended last projected run
      s') : RunWritten sha identity (runIdOf sha identity request) s s' := by
  have hinv' := withIdempotency_keeps hinv identity request waitForSignal
  obtain ⟨⟨htype, hcorrelation, hcausation, hrunId, hrunRef⟩, hmtype, hmref, hmcommand⟩ :=
    runDrafts_ok h.drafts_ok
  obtain ⟨run', ⟨-, retype, -, -, recorrelation, recausation, -, repayload⟩, hevents, hreduce,
    hruns⟩ := h.append.single hinv'
  have ht : last.tenantId = identity.tenantId :=
    Subtype.ext (h.append.tenant hinv' last (List.mem_of_getLast? h.append.is_last))
  have hversion : (s.aggregateHead identity.tenantId.val "investigation"
      (runIdOf sha identity request).val).sequence = 0 := by
    exact_mod_cast h.append.version
  -- the run is new, so its projection starts at this event
  have hnew := run_none_of_version hinv hversion
  have hstart : reduceRun none last = .ok run' := by rw [← hnew]; exact hreduce
  obtain ⟨hid, href⟩ := reduceRun_start hstart
  rw [repayload, payloadIdentifier_str hrunId] at hid
  rw [repayload, payloadIdentifier_str hrunRef] at href
  have hevent : ∀ p t, (s'.events t).countP p = (s.events t).countP p
      + (decide (t = identity.tenantId.val) && p last).toNat := by
    intro p t
    rw [hevents]
    exact countP_update s.events identity.tenantId.val t last p
  have hcount : ∀ p : DeliveryRecord → Bool, Table.count p s'.deliveries
      = Table.count p s.deliveries + (p (outboxRecord identity.tenantId drafts.2)).toNat := by
    intro p
    rw [h.append.count hinv' p, List.countP_singleton, List.countP_nil, Nat.add_zero, ht]
    show Table.count p s.deliveries + _ = _
    cases p (outboxRecord identity.tenantId drafts.2) with
    | false => rfl
    | true => rfl
  refine ⟨h.absent, ⟨_, by rw [h.append.store]; rfl⟩, hnew, ⟨run', hruns, ?_, ?_⟩, ?_, ?_, ?_, ?_,
    ?_, ?_, h.append.lookup_inbox⟩
  · exact (Option.some.inj hid).symm
  · exact (Option.some.inj href).symm
  · intro t ref
    rw [requestedEvents, hevent, requestedEvents, isRequested, retype, recorrelation, hcorrelation,
      htype, ← Bool.decide_and]
    simp only [true_and]
  · intro t ref
    rw [startMessages, hcount, isStart_outboxRecord hmtype hmref]; rfl
  · intro t c
    have hno : isCommandEvent c last = false := by
      simp [isCommandEvent, recausation, hcausation]
    rw [Durability.commandEvents, hevent, hno, Bool.and_false]; rfl
  · intro t c
    have hno : isCommandMessage t c (outboxRecord identity.tenantId drafts.2) = false := by
      simp [isCommandMessage, outboxRecord, payloadHas, hmcommand]
    rw [Durability.commandMessages, hcount, hno]; rfl
  · intro t c
    rw [Durability.inboxRecords, hcount]
    simp [isInbox, outboxRecord, Durability.inboxRecords]
  · intro t r
    rw [resumeCount, hcount]
    simp [isResumeOf, outboxRecord, resumeCount]

theorem Counted.request {texts : Set String} (hfree : sha.CollisionFree texts) (hc : Counted sha texts s)
    {identity : IdentityContext} {runId : Identifier} {s' : Store}
    (htext : joinParts [identity.tenantId.val, identity.requestId.val] ∈ texts)
    (h : RunWritten sha identity runId s s') : Counted sha texts s' := by
  obtain ⟨fingerprint, hidempotency⟩ := h.idempotency
  obtain ⟨run, hruns, hid, href⟩ := h.runs
  refine ⟨fun t q htq => ?_, fun t q entry hentry => ?_, fun t r run₁ hrun₁ => ?_, fun t c => ?_,
    fun t r => ?_⟩
  · obtain ⟨hrequested, hstarts⟩ := hc.requests t q htq
    have hset : t.val = identity.tenantId.val ∧ requestRefOf sha identity = requestRef sha t q →
        (s.idempotency (t.val, q.val)).isSome = false ∧
        (s'.idempotency (t.val, q.val)).isSome = true := by
      rintro ⟨-, heq⟩
      obtain ⟨rfl, rfl⟩ := requestRef_inj hfree htext htq heq
      rw [hidempotency, Function.update_self, h.absent]
      exact ⟨rfl, rfl⟩
    have hkeep : ¬(t.val = identity.tenantId.val ∧ requestRefOf sha identity = requestRef sha t q) →
        (s'.idempotency (t.val, q.val)).isSome = (s.idempotency (t.val, q.val)).isSome := by
      intro hne
      rw [hidempotency, Function.update_of_ne]
      intro heq
      obtain ⟨h1, h2⟩ := Prod.mk.inj heq
      obtain rfl := Subtype.ext h1
      obtain rfl := Subtype.ext h2
      exact hne ⟨rfl, rfl⟩
    exact ⟨count_follows hrequested (h.requested _ _) hset hkeep,
      count_follows hstarts (h.starts _ _) hset hkeep⟩
  · rw [hidempotency] at hentry
    rw [hruns]
    by_cases hk : (t.val, q.val) = (identity.tenantId.val, identity.requestId.val)
    · rw [hk, Function.update_self] at hentry
      obtain rfl := Option.some.inj hentry
      obtain ⟨ht, hq⟩ := Prod.mk.inj hk
      obtain rfl := Subtype.ext ht
      obtain rfl := Subtype.ext hq
      exact ⟨run, Function.update_self .., hid, href⟩
    · rw [Function.update_of_ne hk] at hentry
      obtain ⟨run₀, hrun₀, hid₀, href₀⟩ := hc.accepted t q entry hentry
      -- an old run is not the new one
      refine ⟨run₀, ?_, hid₀, href₀⟩
      rw [Function.update_of_ne, hrun₀]
      intro heq
      rw [heq, h.run_new] at hrun₀
      cases hrun₀
  · rw [hruns] at hrun₁
    rw [hidempotency]
    by_cases hk : (t, r) = (identity.tenantId.val, runId.val)
    · rw [hk, Function.update_self] at hrun₁
      obtain rfl := Option.some.inj hrun₁
      obtain ⟨rfl, rfl⟩ := Prod.mk.inj hk
      exact ⟨identity.tenantId, identity.requestId, _, rfl, htext, href, Function.update_self .., rfl⟩
    · rw [Function.update_of_ne hk] at hrun₁
      obtain ⟨t', q', entry, ht', htext', href', hentry, hr⟩ := hc.runs t r run₁ hrun₁
      refine ⟨t', q', entry, ht', htext', href', ?_, hr⟩
      rw [Function.update_of_ne, hentry]
      intro heq
      rw [heq, h.absent] at hentry
      cases hentry
  · rw [h.commandEvents, h.commandMessages, h.inboxRecords, h.lookup]
    exact hc.commands t c
  · rw [h.resumes]
    exact hc.resumes t r

/-! ### A transition that is no command -/

theorem Counted.transition {texts : Set String} (hinv : LedgerInvariant sha s)
    (hc : Counted sha texts s) {t runId eventType operationId actorRef requestRef : String}
    {failureCode : Option String} {attributes : Option Fields} {now : Datetime} {current : RunView}
    {draft : EventDraft} {appended : List ApplicationEvent} {last : ApplicationEvent}
    {projected : String × String → Option RunView} {run : RunView} {s' : Store}
    (hno : eventType ∉ commandEventTypes)
    (h : NewTransition sha t runId eventType operationId actorRef requestRef failureCode attributes
      now s current draft appended last projected run s') : Counted sha texts s' := by
  obtain ⟨run', ⟨-, retype, -⟩, hevents, hreduce, hruns⟩ := h.append.single hinv
  rw [h.at_run] at hreduce
  have hidempotency : s'.idempotency = s.idempotency := by rw [h.append.store]; rfl
  obtain ⟨haccepted, hrunsOf⟩ :=
    hc.runs_recorded hidempotency h.at_run hruns (reduceRun_identity hreduce)
  have htype : last.eventType.val ∉ commandEventTypes := by
    rw [retype, transitionDraft_ok h.draft_ok]; exact hno
  simp only [commandEventTypes, List.mem_cons, List.not_mem_nil, or_false, not_or] at htype
  have hevent : ∀ (p : ApplicationEvent → Bool) u, p last = false →
      (s'.events u).countP p = (s.events u).countP p := by
    intro p u hp
    rw [hevents, countP_update, hp, Bool.and_false]; rfl
  have hcount : ∀ p : DeliveryRecord → Bool,
      Table.count p s'.deliveries = Table.count p s.deliveries := by
    intro p
    rw [h.append.count hinv p, List.countP_nil, List.countP_nil, Nat.add_zero]
  refine ⟨fun u q htq => ?_, haccepted, hrunsOf, fun u c => ?_, fun u r => ?_⟩
  · have hrequested : ∀ ref, isRequested ref last = false := by
      intro ref; simp [isRequested, htype.1]
    rw [requestedEvents, startMessages, hevent _ _ (hrequested _), hcount, hidempotency]
    exact hc.requests u q htq
  · have hcommand : isCommandEvent c last = false := by
      have hresume : last.eventType ≠ CommandType.resume.eventType := fun heq =>
        htype.2.1 (congrArg Subtype.val heq)
      have hcancel : last.eventType ≠ CommandType.cancel.eventType := fun heq =>
        htype.2.2 (congrArg Subtype.val heq)
      simp [isCommandEvent, hresume, hcancel]
    rw [commandEvents, commandMessages, inboxRecords, hevent _ _ hcommand, hcount, hcount,
      h.append.lookup_inbox]
    exact hc.commands u c
  · rw [resumeCount, hcount]
    exact hc.resumes u r

/-! ### A new signal -/

/-- What a new signal changes, as the invariant sees it. -/
structure SignalWritten (identity : IdentityContext) (command : SignalCommand) (s s' : Store) :
    Prop where
  absent : s.deliveries.lookup (identity.tenantId.val, .inbox, command.commandId.val) = none
  bounded : command.commandType = .resume →
    resumeCount s.deliveries identity.tenantId.val command.runId.val < maxResumeCommands
  idempotency : s'.idempotency = s.idempotency
  runs : ∃ current run, s.runs (identity.tenantId.val, command.runId.val) = some current ∧
    s'.runs = Function.update s.runs (identity.tenantId.val, command.runId.val) (some run) ∧
    run.runId = current.runId ∧ run.requestRef = current.requestRef
  requested : ∀ t ref, requestedEvents s' t ref = requestedEvents s t ref
  starts : ∀ t ref, startMessages s' t ref = startMessages s t ref
  commandEvents : ∀ t c, commandEvents s' t c = commandEvents s t c
    + (decide (t = identity.tenantId.val ∧ command.commandId = c)).toNat
  commandMessages : ∀ t c, commandMessages s' t c = commandMessages s t c
    + (decide (t = identity.tenantId.val ∧ command.commandId = c)).toNat
  inboxRecords : ∀ t c, inboxRecords s' t c = inboxRecords s t c
    + (decide (t = identity.tenantId.val ∧ command.commandId = c)).toNat
  resumes : ∀ t r, resumeCount s'.deliveries t r = resumeCount s.deliveries t r
    + (decide (t = identity.tenantId.val ∧ command.commandType = .resume ∧
        command.runId.val = r)).toNat
  record : ∃ record,
    s'.deliveries.lookup (identity.tenantId.val, .inbox, command.commandId.val) = some record ∧
    record.messageType = command.commandType.messageType ∧
    record.payload.lookup "run_id" = some (.str command.runId.val)
  lookup : ∀ t c, (t, c) ≠ (identity.tenantId.val, command.commandId.val) →
    s'.deliveries.lookup (t, .inbox, c) = s.deliveries.lookup (t, .inbox, c)

theorem CommandType.messageType_resume (k : CommandType) :
    k.messageType.val = "investigation.resume" ↔ k = .resume := by
  cases k with
  | resume => exact ⟨fun _ => rfl, fun _ => rfl⟩
  | cancel => exact ⟨fun h => absurd h (by decide), fun h => by cases h⟩

/-! A new record, under each of the properties that are counted. -/

section Records

variable {tenant : Identifier} {at' : Datetime} {m : OutboxDraft} {i : InboxDraft}

theorem isStart_inboxRecord (t : String) (ref : Identifier) :
    isStart t ref (inboxRecord tenant at' i) = false := by
  simp [isStart, inboxRecord]

theorem isStart_of_messageType (h : m.messageType.val ≠ "investigation.start") (t : String)
    (ref : Identifier) : isStart t ref (outboxRecord tenant m) = false := by
  simp [isStart, outboxRecord, h]

theorem isCommandMessage_inboxRecord (t : String) (c : Identifier) :
    isCommandMessage t c (inboxRecord tenant at' i) = false := by
  simp [isCommandMessage, inboxRecord]

theorem isCommandMessage_outboxRecord {c' : Identifier} (hdestination : m.destination.val = "temporal")
    (href : m.payload.lookup "command_ref" = some (.str c'.val)) (t : String) (c : Identifier) :
    isCommandMessage t c (outboxRecord tenant m) = decide (t = tenant.val ∧ c' = c) := by
  rw [Bool.eq_iff_iff]
  simp only [isCommandMessage, outboxRecord, hdestination, payloadHas, href, Bool.and_eq_true,
    beq_iff_eq, decide_eq_true_eq, and_true, Subtype.ext_iff]
  exact and_congr_left' eq_comm

theorem isInbox_outboxRecord (t : String) (c : Identifier) :
    isInbox t c (outboxRecord tenant m) = false := by
  simp [isInbox, outboxRecord]

theorem isInbox_inboxRecord (t : String) (c : Identifier) :
    isInbox t c (inboxRecord tenant at' i) = decide (t = tenant.val ∧ i.messageId = c) := by
  rw [Bool.eq_iff_iff]
  simp only [isInbox, inboxRecord, Bool.and_eq_true, beq_iff_eq, decide_eq_true_eq, and_true]
  exact and_congr eq_comm decide_eq_true_iff

theorem isResumeOf_outboxRecord (t r : String) :
    isResumeOf t r (outboxRecord tenant m) = false := by
  simp [isResumeOf, outboxRecord]

theorem isResumeOf_inboxRecord {k : CommandType} {r' : String} (htype : i.messageType = k.messageType)
    (hrun : i.payload.lookup "run_id" = some (.str r')) (t r : String) :
    isResumeOf t r (inboxRecord tenant at' i) = decide (t = tenant.val ∧ k = .resume ∧ r' = r) := by
  rw [Bool.eq_iff_iff]
  simp only [isResumeOf, inboxRecord, htype, payloadRunIs, hrun, Bool.and_eq_true, beq_iff_eq,
    decide_eq_true_eq, and_true, CommandType.messageType_resume, and_assoc]
  exact and_congr_left' eq_comm

end Records

theorem NewSignal.written (hinv : LedgerInvariant sha s) {identity : IdentityContext}
    {command : SignalCommand} {availableAt occurredAt : Datetime} {current : RunView}
    {drafts : InboxDraft × OutboxDraft × EventDraft} {appended : List ApplicationEvent}
    {last : ApplicationEvent} {projected : String × String → Option RunView} {run : RunView}
    {s' : Store} (h : NewSignal sha identity command availableAt occurredAt s current drafts appended
      last projected run s') : SignalWritten identity command s s' := by
  obtain ⟨⟨hmid, hitype, hirun⟩, ⟨hdestination, hmtype, hmcommand⟩, htype, hcausation⟩ :=
    signalDrafts_ok h.drafts_ok
  obtain ⟨run', ⟨-, retype, -, -, -, recausation, -, -⟩, hevents, hreduce, hruns⟩ :=
    h.append.single hinv
  rw [h.at_run] at hreduce
  have ht : last.tenantId = identity.tenantId :=
    Subtype.ext (h.append.tenant hinv last (List.mem_of_getLast? h.append.is_last))
  have hcount : ∀ p : DeliveryRecord → Bool, Table.count p s'.deliveries
      = Table.count p s.deliveries + (p (outboxRecord identity.tenantId drafts.2.1)).toNat
        + (p (inboxRecord identity.tenantId last.occurredAt drafts.1)).toNat := by
    intro p
    rw [h.append.count hinv p, List.countP_singleton, List.countP_singleton, ht]
    cases p (outboxRecord identity.tenantId drafts.2.1) <;>
      cases p (inboxRecord identity.tenantId last.occurredAt drafts.1) <;> rfl
  have hcommandType : command.commandType.eventType = CommandType.resume.eventType ∨
      command.commandType.eventType = CommandType.cancel.eventType := by
    cases command.commandType with
    | resume => exact .inl rfl
    | cancel => exact .inr rfl
  have hnotRequested : command.commandType.eventType.val ≠ "investigation.requested" := by
    cases command.commandType <;> decide
  have hnotStart : command.commandType.eventType.val ≠ "investigation.start" := by
    cases command.commandType <;> decide
  refine ⟨h.absent, h.bounded, by rw [h.append.store]; rfl, ⟨current, run', h.at_run, hruns,
    reduceRun_identity hreduce⟩, ?_, ?_, ?_, ?_, ?_, ?_, ?_, ?_⟩
  · intro t ref
    have hno : isRequested ref last = false := by
      simp [isRequested, retype, htype, hnotRequested]
    rw [requestedEvents, hevents, countP_update, hno, Bool.and_false]; rfl
  · intro t ref
    have hno : isStart t ref (outboxRecord identity.tenantId drafts.2.1) = false :=
      isStart_of_messageType (by rw [hmtype]; exact hnotStart) t ref
    rw [startMessages, hcount, hno, isStart_inboxRecord]; rfl
  · intro t c
    rw [Durability.commandEvents, hevents, countP_update, isCommandEvent, retype, htype, recausation,
      hcausation, ← Bool.decide_and]
    simp only [hcommandType, true_and, Option.some.injEq, Durability.commandEvents]
  · intro t c
    rw [Durability.commandMessages, hcount, isCommandMessage_inboxRecord,
      isCommandMessage_outboxRecord hdestination hmcommand]; rfl
  · intro t c
    rw [Durability.inboxRecords, hcount, isInbox_outboxRecord, isInbox_inboxRecord, hmid]; rfl
  · intro t r
    rw [resumeCount, hcount, isResumeOf_outboxRecord, isResumeOf_inboxRecord hitype hirun]; rfl
  · -- the inbox record is under its key
    have hmem : ∃ m ∈ [drafts.1], ((last.tenantId.val, Direction.inbox, m.messageId.val) : DeliveryKey)
        = (identity.tenantId.val, Direction.inbox, command.commandId.val) :=
      ⟨drafts.1, List.mem_singleton_self _, by rw [ht, hmid]⟩
    obtain ⟨m, hm, -, hlookup⟩ := Table.lookup_insertAll_of_mem
      (d := Table.insertAll (fun m : OutboxDraft => ((last.tenantId.val, Direction.outbox,
        m.messageId.val) : DeliveryKey)) (outboxRecord last.tenantId) s.deliveries [drafts.2.1])
      (inboxRecord last.tenantId last.occurredAt) hmem
    obtain rfl := List.mem_singleton.mp hm
    refine ⟨inboxRecord last.tenantId last.occurredAt drafts.1, ?_, hitype, hirun⟩
    rw [h.append.store]
    exact hlookup
  · intro t c hne
    refine h.append.lookup_of_notMem ?_ ?_
    · intro m _ heq
      cases (Prod.mk.inj (Prod.mk.inj heq).2).1
    · intro m hm heq
      obtain rfl := List.mem_singleton.mp hm
      rw [ht, hmid] at heq
      obtain ⟨h1, h2⟩ := Prod.mk.inj heq
      exact hne (by rw [← h1, ← (Prod.mk.inj h2).2])

theorem Counted.signal {texts : Set String} (hc : Counted sha texts s) {identity : IdentityContext}
    {command : SignalCommand} {s' : Store} (h : SignalWritten identity command s s') :
    Counted sha texts s' := by
  obtain ⟨current, run, hcurrent, hruns, hsame⟩ := h.runs
  obtain ⟨haccepted, hrunsOf⟩ := hc.runs_recorded h.idempotency hcurrent hruns hsame
  refine ⟨fun t q htq => ?_, haccepted, hrunsOf, fun t c => ?_, fun t r => ?_⟩
  · rw [h.requested, h.starts, h.idempotency]
    exact hc.requests t q htq
  · obtain ⟨hevents, hmessages, hinbox⟩ := hc.commands t c
    have hset : t = identity.tenantId.val ∧ command.commandId = c →
        (s.deliveries.lookup (t, .inbox, c.val)).isSome = false ∧
        (s'.deliveries.lookup (t, .inbox, c.val)).isSome = true := by
      rintro ⟨rfl, rfl⟩
      obtain ⟨record, hrecord, -⟩ := h.record
      rw [h.absent, hrecord]
      exact ⟨rfl, rfl⟩
    have hkeep : ¬(t = identity.tenantId.val ∧ command.commandId = c) →
        (s'.deliveries.lookup (t, .inbox, c.val)).isSome
          = (s.deliveries.lookup (t, .inbox, c.val)).isSome := by
      intro hne
      rw [h.lookup]
      intro heq
      obtain ⟨h1, h2⟩ := Prod.mk.inj heq
      exact hne ⟨h1, (Subtype.ext h2).symm⟩
    exact ⟨count_follows hevents (h.commandEvents t c) hset hkeep,
      count_follows hmessages (h.commandMessages t c) hset hkeep,
      count_follows hinbox (h.inboxRecords t c) hset hkeep⟩
  · rw [h.resumes]
    by_cases hnew : t = identity.tenantId.val ∧ command.commandType = .resume ∧ command.runId.val = r
    · obtain ⟨rfl, htype, rfl⟩ := hnew
      have hlt := h.bounded htype
      rw [decide_eq_true ⟨rfl, htype, rfl⟩]
      show _ + 1 ≤ _
      omega
    · rw [decide_eq_false hnew]
      exact hc.resumes t r

/-! ## Every run of commands -/

theorem step_counted {texts : Set String} (hfree : sha.CollisionFree texts)
    (hinv : StoreInvariant sha s) (hc : Counted sha texts s) {op : Op} (hop : op.isCommandCall)
    (htexts : ∀ x ∈ op.stableTexts sha, x ∈ texts) : Counted sha texts (step sha s op).2 := by
  have hstep := step_command hinv hop
  generalize (step sha s op).1 = result at hstep
  generalize (step sha s op).2 = s' at hstep
  cases hstep with
  | quiet _ _ _ h => exact hc.quiet h
  | request identity request waitForSignal now traceRef drafts appended last projected run _ h =>
    refine hc.request hfree (htexts _ ?_) (h.written hinv.ledger)
    simp [Op.stableTexts]
  | transition t runId eventType operationId actor ref failureCode attributes now current draft
      appended last projected run _ h =>
    exact hc.transition hinv.ledger hop h
  | signal identity command availableAt occurredAt current drafts appended last projected run _ h =>
    exact hc.signal (h.written hinv.ledger)

section Histories

variable {ops : List Op} {pre mid post : List HistoryEntry} {e e' : HistoryEntry}

theorem history_op (he : e ∈ history sha ops) : e.op ∈ ops := by
  obtain ⟨xs, ys, hops, -⟩ := Machine.trace_mem he
  rw [hops]; simp

/-- A run of commands keeps the agreement. -/
theorem counted_run {texts : Set String} (hfree : sha.CollisionFree texts) (ops : List Op)
    (hcalls : ∀ op ∈ ops, op.isCommandCall) (htexts : stableTexts sha ops ⊆ texts) :
    Counted sha texts (run sha ops) := by
  suffices h : StoreInvariant sha (run sha ops) ∧ Counted sha texts (run sha ops) from h.2
  refine Machine.run_invariant (I := fun s => StoreInvariant sha s ∧ Counted sha texts s)
    (C := fun _ op => op.isCommandCall ∧ ∀ x ∈ op.stableTexts sha, x ∈ texts) ?_ ops Store.empty
    ⟨storeInvariant_empty sha, counted_empty sha texts⟩ ?_
  · rintro s op ⟨hinv, hc⟩ ⟨hop, hmem⟩
    exact ⟨step_invariant sha s op hinv, step_counted hfree hinv hc hop hmem⟩
  · intro e he
    have hop := history_op he
    exact ⟨hcalls e.op hop, fun x hx => htexts ⟨e.op, hop, hx⟩⟩

theorem history_counted (hcalls : ∀ op ∈ ops, op.isCommandCall)
    (hfree : sha.CollisionFree (stableTexts sha ops)) (he : e ∈ history sha ops) :
    Counted sha (stableTexts sha ops) e.before := by
  obtain ⟨xs, ys, hops, hentry⟩ := Machine.trace_mem he
  rw [hentry]
  refine counted_run hfree xs (fun op hop => hcalls op ?_) ?_
  · rw [hops]; exact List.mem_append_left _ hop
  · rintro x ⟨op, hop, hx⟩
    exact ⟨op, by rw [hops]; exact List.mem_append_left _ hop, hx⟩

/-- What every command call keeps, a stretch of them keeps. -/
theorem command_run {P : Store → Prop}
    (hstep : ∀ s op, StoreInvariant sha s → op.isCommandCall → P s → P (step sha s op).2)
    (hinv : StoreInvariant sha s) (hs : P s) (calls : List Op)
    (hcalls : ∀ op ∈ calls, op.isCommandCall) : P (Machine.final (step sha) s calls) := by
  suffices hboth : StoreInvariant sha (Machine.final (step sha) s calls) ∧
      P (Machine.final (step sha) s calls) from hboth.2
  refine Machine.run_invariant (I := fun s => StoreInvariant sha s ∧ P s)
    (C := fun _ op => op.isCommandCall) ?_ calls s ⟨hinv, hs⟩ ?_
  · rintro s op ⟨hinv, hs⟩ hop
    exact ⟨step_invariant sha s op hinv, hstep s op hinv hop hs⟩
  · intro m hm
    obtain ⟨us, vs, hsplit, -⟩ := Machine.trace_mem hm
    exact hcalls m.op (by rw [hsplit]; simp)

/-- It holds from one call of a run of commands to the next. -/
theorem history_keeps {P : Store → Prop}
    (hstep : ∀ s op, StoreInvariant sha s → op.isCommandCall → P s → P (step sha s op).2)
    (hcalls : ∀ op ∈ ops, op.isCommandCall)
    (h : history sha ops = pre ++ e :: (mid ++ e' :: post)) (hafter : P e.after) : P e'.before := by
  obtain ⟨hcalled, -, between, hmid, hbefore⟩ := history_pair h
  rw [hbefore]
  refine command_run hstep hcalled.after hafter between fun op hop => ?_
  have hsub : ∀ m ∈ mid, m.op ∈ ops := by
    intro m hm
    have hm' : m ∈ history sha ops := by rw [h]; simp [hm]
    exact history_op hm'
  obtain ⟨m, hm, rfl⟩ := Machine.trace_ops (step sha) e.after hop
  exact hcalls m.op (hsub m (by rw [hmid]; exact hm))

/-- And from a call to the end of the run. -/
theorem history_ends {P : Store → Prop}
    (hstep : ∀ s op, StoreInvariant sha s → op.isCommandCall → P s → P (step sha s op).2)
    (hcalls : ∀ op ∈ ops, op.isCommandCall) (he : e ∈ history sha ops) (hafter : P e.after) :
    P (run sha ops) := by
  obtain ⟨pre, post, hsplit⟩ := List.append_of_mem he
  obtain ⟨xs, ys, hops, -, hentry, -⟩ := Machine.trace_split hsplit
  have hfinal : run sha ops = Machine.final (step sha) e.after ys := by
    rw [run, hops, Machine.final_append]
    show Machine.final (step sha) (step sha (Machine.final (step sha) Store.empty xs) e.op).2 ys = _
    rw [hentry]; rfl
  rw [hfinal]
  refine command_run hstep (history_called he).after hafter ys fun op hop => ?_
  exact hcalls op (by rw [hops]; simp [hop])

end Histories

end Durability

end Aegis
