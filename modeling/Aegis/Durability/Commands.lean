/-
  EXACTLY-ONCE ACCEPTANCE OF COMMANDS.

  Two kinds of command reach the ledger: a REQUEST, known by its tenant and request id, and a SIGNAL
  (resume or cancel), known by its tenant and command id.  Each may be sent again and again, by any
  caller, between any other calls.  The idempotency table and the inbox are what the store remembers
  of them; the laws say that these two tables and the ledger never disagree: one entry there, one
  event, one message and one run here.

  `Counted` is that agreement as an invariant.  It is kept because a call either leaves events, runs,
  the idempotency table and the identity of every message alone, or is one of three appends
  (`CommandStep`).
-/
import Mathlib
import Aegis.Durability.Outbox

namespace Aegis

namespace Durability

variable {sha : Sha256} {s : Store}

/-! ## What is counted -/

/-- `record.payload.get(key) == text`. -/
def payloadHas (payload : Fields) (key text : String) : Bool :=
  match payload.lookup key with
  | some (.str s) => s == text
  | _ => false

/-- The request reference of a tenant's request id. -/
def requestRef (sha : Sha256) (tenantId requestId : Identifier) : Identifier :=
  stableIdentifier sha "request" [tenantId.val, requestId.val] 32

def isRequested (ref : Identifier) (e : ApplicationEvent) : Bool :=
  decide (e.eventType.val = "investigation.requested" ∧ e.correlationRef = ref)

/-- The `investigation.requested` events of a request. -/
def requestedEvents (s : Store) (tenantId : String) (ref : Identifier) : Nat :=
  (s.events tenantId).countP (isRequested ref)

def isStart (tenantId : String) (ref : Identifier) (r : DeliveryRecord) : Bool :=
  r.tenantId.val == tenantId && r.direction == .outbox
    && r.messageType.val == "investigation.start" && payloadHas r.payload "request_ref" ref.val

/-- The start messages of a request. -/
def startMessages (s : Store) (tenantId : String) (ref : Identifier) : Nat :=
  Table.count (isStart tenantId ref) s.deliveries

def isCommandEvent (commandId : Identifier) (e : ApplicationEvent) : Bool :=
  decide ((e.eventType = CommandType.resume.eventType ∨ e.eventType = CommandType.cancel.eventType) ∧
    e.causationRef = some commandId)

/-- The `*_requested` events of a command. -/
def commandEvents (s : Store) (tenantId : String) (commandId : Identifier) : Nat :=
  (s.events tenantId).countP (isCommandEvent commandId)

def isCommandMessage (tenantId : String) (commandId : Identifier) (r : DeliveryRecord) : Bool :=
  r.tenantId.val == tenantId && r.direction == .outbox && r.destination.val == "temporal"
    && payloadHas r.payload "command_ref" commandId.val

/-- The messages to the workflow engine of a command. -/
def commandMessages (s : Store) (tenantId : String) (commandId : Identifier) : Nat :=
  Table.count (isCommandMessage tenantId commandId) s.deliveries

def isInbox (tenantId : String) (commandId : Identifier) (r : DeliveryRecord) : Bool :=
  r.tenantId.val == tenantId && r.direction == .inbox && decide (r.messageId = commandId)

/-- The inbox records of a command. -/
def inboxRecords (s : Store) (tenantId : String) (commandId : Identifier) : Nat :=
  Table.count (isInbox tenantId commandId) s.deliveries

/-! ## The calls -/

/-- The event types that record an accepted command. -/
def commandEventTypes : List String :=
  ["investigation.requested", "investigation.resume_requested", "investigation.cancel_requested"]

/-- Accepting commands, recording transitions that are no commands, delivering messages, and
    rebuilding. -/
def Op.isCommandCall : Op → Prop
  | .append .. => False
  | .replayLegacy .. => False
  | .recordTransition _ _ eventType _ _ _ _ _ _ => eventType ∉ commandEventTypes
  | _ => True

/-- What delivery does not change of a record. -/
structure Message where
  tenantId : Identifier
  messageId : Identifier
  direction : Direction
  destination : Identifier
  messageType : Identifier
  payload : Fields

def DeliveryRecord.message (r : DeliveryRecord) : Message :=
  { tenantId := r.tenantId, messageId := r.messageId, direction := r.direction,
    destination := r.destination, messageType := r.messageType, payload := r.payload }

/-- A call that accepts nothing and records nothing. -/
structure Quiet (s s' : Store) : Prop where
  events : s'.events = s.events
  runs : s'.runs = s.runs
  idempotency : s'.idempotency = s.idempotency
  messages : ∀ k, (s'.deliveries.lookup k).map (·.message) = (s.deliveries.lookup k).map (·.message)

/-- What a command call does to the store. -/
inductive CommandStep (sha : Sha256) (s : Store) : Op → Except Error Result → Store → Prop
  | quiet (op : Op) (result : Except Error Result) (s' : Store) (h : Quiet s s') :
      CommandStep sha s op result s'
  | request (identity : IdentityContext) (request : InvestigationRequest) (waitForSignal : Bool)
      (now : Datetime) (traceRef : String) (drafts : EventDraft × OutboxDraft)
      (appended : List ApplicationEvent) (last : ApplicationEvent)
      (projected : String × String → Option RunView) (run : RunView) (s' : Store)
      (h : NewRun sha identity request waitForSignal now s traceRef drafts appended last projected
        run s') :
      CommandStep sha s (.acceptRun identity request waitForSignal now) (.ok (.run run)) s'
  | transition (t runId eventType operationId actorRef requestRef : String)
      (failureCode : Option String) (attributes : Option Fields) (now : Datetime)
      (current : RunView) (draft : EventDraft) (appended : List ApplicationEvent)
      (last : ApplicationEvent) (projected : String × String → Option RunView) (run : RunView)
      (s' : Store) (h : NewTransition sha t runId eventType operationId actorRef requestRef
        failureCode attributes now s current draft appended last projected run s') :
      CommandStep sha s (.recordTransition t runId eventType operationId actorRef requestRef
        failureCode attributes now) (.ok (.run run)) s'
  | signal (identity : IdentityContext) (command : SignalCommand) (availableAt occurredAt : Datetime)
      (current : RunView) (drafts : InboxDraft × OutboxDraft × EventDraft)
      (appended : List ApplicationEvent) (last : ApplicationEvent)
      (projected : String × String → Option RunView) (run : RunView) (s' : Store)
      (h : NewSignal sha identity command availableAt occurredAt s current drafts appended last
        projected run s') :
      CommandStep sha s (.acceptSignal identity command availableAt occurredAt) (.ok (.run run)) s'

theorem Quiet.refl (s : Store) : Quiet s s := ⟨rfl, rfl, rfl, fun _ => rfl⟩

/-- Delivery changes no message. -/
theorem DeliveryStep.message {op : Op} {result : Except Error Result} {k : DeliveryKey}
    {before after : Option DeliveryRecord} (h : DeliveryStep sha op result k before after)
    (hdelivery : op.claimTime ≠ none ∨ op.settles ≠ none) :
    after.map (·.message) = before.map (·.message) := by
  cases h with
  | same r hissued hsettled => rfl
  | created r hissued hsettled htime hk hattempts hstatus =>
    rcases hdelivery with hne | hne
    · exact absurd htime hne
    · exact absurd hsettled hne
  | claimed r t worker now claimUntil limit c hop hclaimable hk hissue hmem honly =>
    obtain ⟨-, -, hrecord⟩ := issueClaim_some hissue
    rw [hrecord]; rfl
  | dead r t worker now claimUntil limit hop hclaimable hk hissue hissued => rfl
  | settled r c status errorCode retryAt v hop hok hk howns hstatus hissued => rfl

/-- A delivery call changes delivery records only. -/
theorem delivery_tables (op : Op) (hdelivery : op.claimTime ≠ none ∨ op.settles ≠ none) (s : Store) :
    Exec.Sat (op.body sha) s (fun _ s' => s' = { s with deliveries := s'.deliveries })
      (fun _ s' => s' = { s with deliveries := s'.deliveries }) := by
  have hupdate : ∀ claim status errorCode retryAt, Exec.Sat (do
      updateClaim claim status errorCode retryAt; return Result.none) s
      (fun _ s' => s' = { s with deliveries := s'.deliveries })
      (fun _ s' => s' = { s with deliveries := s'.deliveries }) := by
    intro claim status errorCode retryAt
    refine Exec.Sat.call (updateClaim_sat claim status errorCode retryAt s) ?_ ?_
    · rintro e s' ⟨rfl, -, -⟩; rfl
    · rintro _ s' ⟨r, -, -, rfl⟩; rfl
  cases op with
  | claimOutbox t worker now claimUntil limit =>
    refine Exec.Sat.call (claimOutbox_sat sha t worker now claimUntil limit s) ?_ ?_
    · rintro _ s' rfl; rfl
    · rintro claims s' ⟨-, -, hs'⟩; exact hs'
  | completeOutbox claim => exact hupdate _ _ _ _
  | failOutbox claim errorCode retryAt permanent => exact hupdate _ _ _ _
  | _ => rcases hdelivery with hne | hne <;> exact absurd rfl hne

theorem delivery_quiet (hinv : StoreInvariant sha s) (op : Op)
    (hdelivery : op.claimTime ≠ none ∨ op.settles ≠ none) : Quiet s (step sha s op).2 := by
  have htables : (step sha s op).2 = { s with deliveries := (step sha s op).2.deliveries } :=
    Exec.Sat.state (delivery_tables op hdelivery s)
  refine ⟨by rw [htables], by rw [htables], by rw [htables], fun k => ?_⟩
  exact (step_delivery hinv op k).message hdelivery

/-- **What one command call does.** -/
theorem step_command (hinv : StoreInvariant sha s) {op : Op} (hop : op.isCommandCall) :
    CommandStep sha s op (step sha s op).1 (step sha s op).2 := by
  by_cases hdelivery : op.claimTime ≠ none ∨ op.settles ≠ none
  · exact .quiet _ _ _ (delivery_quiet hinv op hdelivery)
  refine Exec.Sat.outcome (x := op.body sha) (P := fun result s' => CommandStep sha s op result s') ?_
  have hsame : ∀ (op : Op) (e : Error) (s' : Store), s' = s → CommandStep sha s op (.error e) s' := by
    rintro op e s' rfl
    exact .quiet op _ _ (Quiet.refl s')
  cases op with
  | append t ty id v drafts outbox inbox => exact False.elim hop
  | replayLegacy t id actor correlation legacy upcast => exact False.elim hop
  | acceptRun identity request waitForSignal now =>
    refine Exec.Sat.call (acceptRun_sat hinv.ledger identity request waitForSignal now)
      (hsame _) ?_
    rintro run s' (⟨-, rfl⟩ | ⟨traceRef, drafts, appended, last, projected, h⟩)
    · exact .quiet _ _ _ (Quiet.refl _)
    · exact .request identity request waitForSignal now traceRef drafts appended last projected run
        s' h
  | acceptSignal identity command availableAt occurredAt =>
    refine Exec.Sat.call (acceptSignal_sat hinv.ledger identity command availableAt occurredAt)
      (hsame _) ?_
    rintro run s' (⟨-, rfl⟩ | ⟨current, drafts, appended, last, projected, h⟩)
    · exact .quiet _ _ _ (Quiet.refl _)
    · exact .signal identity command availableAt occurredAt current drafts appended last projected
        run s' h
  | recordTransition t runId eventType operationId actor request failureCode attributes now =>
    refine Exec.Sat.call (recordTransition_sat hinv.ledger t runId eventType operationId actor
      request failureCode attributes now) (hsame _) ?_
    rintro run s' (rfl | ⟨current, draft, appended, last, projected, h⟩)
    · exact .quiet _ _ _ (Quiet.refl _)
    · exact .transition t runId eventType operationId actor request failureCode attributes now
        current draft appended last projected run s' h
  | rebuildRunProjections t =>
    refine Exec.Sat.call (rebuildRunProjections_sat hinv.ledger t) (hsame _) ?_
    rintro _ s' hs'
    refine .quiet _ _ _ ?_
    rw [hs']; exact ⟨rfl, rfl, rfl, fun _ => rfl⟩
  | rebuildRun t r =>
    refine Exec.Sat.call (rebuildRun_sat hinv.ledger t r) (hsame _) ?_
    rintro _ s' rfl
    exact .quiet _ _ _ (Quiet.refl _)
  | claimOutbox t worker now claimUntil limit => exact absurd (.inl (by simp [Op.claimTime])) hdelivery
  | completeOutbox claim => exact absurd (.inr (by simp [Op.settles])) hdelivery
  | failOutbox claim errorCode retryAt permanent =>
    exact absurd (.inr (by simp [Op.settles])) hdelivery

/-! ## One appended event -/

/-- Projecting an event onto a run keeps what identifies the run. -/
theorem reduceRun_identity {current run : RunView} {event : ApplicationEvent}
    (h : reduceRun (some current) event = .ok run) :
    run.runId = current.runId ∧ run.requestRef = current.requestRef := by
  unfold reduceRun at h
  split at h
  · cases h
  · obtain ⟨code, -, h⟩ := except_bind_ok.mp h
    dsimp only at h
    split at h
    · cases h
    · obtain ⟨-, -, h⟩ := except_bind_ok.mp h
      rw [← Except.ok.inj h]
      exact ⟨rfl, rfl⟩

/-- The run a requested event starts is identified by the payload. -/
theorem reduceRun_start {run : RunView} {event : ApplicationEvent}
    (h : reduceRun none event = .ok run) :
    payloadIdentifier event.payload "run_id" = some run.runId ∧
      payloadIdentifier event.payload "request_ref" = some run.requestRef := by
  unfold reduceRun at h
  split at h
  · cases h
  · obtain ⟨code, -, h⟩ := except_bind_ok.mp h
    dsimp only at h
    split at h
    · cases h
    · split at h
      · cases h
      · rename_i run' hstart
        simp only [startRun, Option.bind_eq_bind, Option.bind_eq_some_iff] at hstart
        obtain ⟨runId, hrunId, _, _, ref, href, _, _, hrun⟩ := hstart
        rw [← Except.ok.inj h, ← Option.some.inj hrun]
        exact ⟨hrunId, href⟩

/-- An append of one event to a run: the event, and the run it is projected onto. -/
theorem Appended.single {t id : String} {expectedVersion : Int} {draft : EventDraft}
    {outbox : List OutboxDraft} {inbox : List InboxDraft} {s' : Store}
    {appended : List ApplicationEvent} {last : ApplicationEvent}
    {projected : String × String → Option RunView} (hinv : LedgerInvariant sha s)
    (h : Appended sha t "investigation" id expectedVersion [draft] outbox inbox s appended last
      projected s') :
    ∃ run, last.Records draft ∧ s'.events = Function.update s.events t (s.events t ++ [last]) ∧
      reduceRun (s.runs (t, id)) last = .ok run ∧
      s'.runs = Function.update s.runs (t, id) (some run) := by
  obtain ⟨-, hkeys, hrecords⟩ := h.chain hinv
  obtain ⟨e, rest, hrec, hnil, rfl⟩ := List.forall₂_cons_right_iff.mp hrecords
  obtain rfl := List.forall₂_nil_right_iff.mp hnil
  obtain rfl : e = last := by simpa using h.is_last
  have ht := h.tenant hinv e List.mem_cons_self
  have hkey := hkeys e List.mem_cons_self
  obtain ⟨hty, hid⟩ := Prod.mk.inj hkey
  have hproject := h.project
  rw [projectEvents, if_neg (by rw [hty]; simp)] at hproject
  obtain ⟨run, hrun, hproject⟩ := except_bind_ok.mp hproject
  rw [projectEvents] at hproject
  rw [ht, hid] at hrun hproject
  refine ⟨run, hrec, h.events, hrun, ?_⟩
  funext key
  rw [h.runs, ← Except.ok.inj hproject]
  by_cases hk : key = (t, id)
  · subst hk; rw [Function.update_self, Function.update_self]; rfl
  · rw [Function.update_of_ne hk, Function.update_of_ne hk]; rfl

/-- The delivery records of an append, counted: the old ones, the outbox and the inbox. -/
theorem Appended.count {t ty id : String} {expectedVersion : Int} {drafts : List EventDraft}
    {outbox : List OutboxDraft} {inbox : List InboxDraft} {s' : Store}
    {appended : List ApplicationEvent} {last : ApplicationEvent}
    {projected : String × String → Option RunView} (hinv : LedgerInvariant sha s)
    (h : Appended sha t ty id expectedVersion drafts outbox inbox s appended last projected s')
    (p : DeliveryRecord → Bool) :
    Table.count p s'.deliveries = Table.count p s.deliveries
      + outbox.countP (fun m => p (outboxRecord last.tenantId m))
      + inbox.countP (fun m => p (inboxRecord last.tenantId last.occurredAt m)) := by
  have ht : last.tenantId.val = t := h.tenant hinv last (List.mem_of_getLast? h.is_last)
  have hnew : s'.deliveries
      = insertDeliveries s.deliveries last.tenantId last.occurredAt outbox inbox := by
    rw [h.store]; rfl
  have hpair : ∀ (direction : Direction) (ids : List String), ids.Nodup →
      (ids.map fun m => ((last.tenantId.val, direction, m) : DeliveryKey)).Nodup := by
    intro direction ids hids
    refine hids.map fun a b hab => ?_
    exact (Prod.mk.inj (Prod.mk.inj hab).2).2
  rw [hnew, insertDeliveries, Table.count_insertAll, Table.count_insertAll]
  · have := hpair .outbox _ h.outbox_nodup
    rwa [List.map_map] at this
  · rw [ht]; exact h.outbox_fresh
  · have := hpair .inbox _ h.inbox_nodup
    rwa [List.map_map] at this
  · -- an inbox key is new in the old table, and no outbox key
    intro m hm hmem
    rw [← AList.lookup_isSome, Table.lookup_insertAll_of_notMem, AList.lookup_isSome, ht] at hmem
    · exact h.inbox_fresh m hm hmem
    · intro m' _ heq
      cases (Prod.mk.inj (Prod.mk.inj heq).2).1

/-- A run whose version is zero has no projection yet. -/
theorem run_none_of_version {t id : String} (hinv : LedgerInvariant sha s)
    (h : (s.aggregateHead t "investigation" id).sequence = 0) : s.runs (t, id) = none := by
  have hempty : aggregateEvents (s.events t) ("investigation", id) = [] := by
    rw [hinv.aggregateHead, aggregateHeadOf] at h
    cases hlast : (aggregateEvents (s.events t) ("investigation", id)).getLast? with
    | none => exact List.getLast?_eq_none_iff.mp hlast
    | some e =>
      rw [hlast] at h
      have := e.sequence_ok
      simp only [Option.map_some, Option.getD_some, ApplicationEvent.asAggregateHead] at h
      omega
  have hfold := hinv.runs t id
  rw [runEvents_eq_aggregateEvents, hempty] at hfold
  exact (Except.ok.inj hfold).symm

end Durability

end Aegis
