/-
  THE LAWS OF COMMANDS over whole histories: one acceptance, harmless repetition, refused reuse.

  A repeated command is answered from what the store remembers of the first acceptance: the
  idempotency record of a request, the inbox record of a signal.  Neither is ever changed by a later
  call (`idempotency_kept`, `inbox_kept`), so the answer to a repetition is computed from the state
  the first acceptance left.

  Two things are NOT promised.  `record_transition` takes any event type, so a caller that records
  `investigation.requested` itself adds a second such event; and a signal for a run that does not
  exist is refused as such, even when its command id was used before
  (`requested_twice_by_transition`).
-/
import Mathlib
import Aegis.Durability.ExactlyOnce

namespace Aegis

namespace Durability

variable {sha : Sha256} {s : Store}

/-! ## What is asked -/

/-- `e` is an earlier call of the history than `e'`. -/
def Precedes (h : List HistoryEntry) (e e' : HistoryEntry) : Prop :=
  ∃ pre mid post, h = pre ++ e :: (mid ++ e' :: post)

/-- The call is an accepted request, answered with the run `view`. -/
structure AcceptsRequest (e : HistoryEntry) (identity : IdentityContext)
    (request : InvestigationRequest) (waitForSignal : Bool) (view : RunView) : Prop where
  op : ∃ now, e.op = .acceptRun identity request waitForSignal now
  result : e.result = .ok (.run view)

/-- The call is an accepted signal of the tenant. -/
structure AcceptsSignal (e : HistoryEntry) (tenantId : String) (command : SignalCommand) : Prop where
  op : ∃ identity availableAt occurredAt, identity.tenantId.val = tenantId ∧
    e.op = .acceptSignal identity command availableAt occurredAt
  result : ∃ view, e.result = .ok (.run view)

/-- Two callers send under one request id. -/
def SameRequestId (identity identity' : IdentityContext) : Prop :=
  identity'.tenantId = identity.tenantId ∧ identity'.requestId = identity.requestId

/-- The laws of commands over the history of `ops`. -/
structure CommandLaws (sha : Sha256) (ops : List Op) : Prop where
  /-- An accepted request has one requested event, one start message and one run. -/
  request_once : ∀ e ∈ history sha ops, ∀ identity request waitForSignal view,
    AcceptsRequest e identity request waitForSignal view →
    requestedEvents (run sha ops) identity.tenantId.val (requestRefOf sha identity) = 1 ∧
      startMessages (run sha ops) identity.tenantId.val (requestRefOf sha identity) = 1 ∧
      ∀ r, (∃ v, (run sha ops).runs (identity.tenantId.val, r) = some v ∧
        v.requestRef = requestRefOf sha identity) ↔ r = view.runId.val
  /-- The same request again, by any caller of the tenant, is answered with the same run and
      changes nothing. -/
  request_repeated : ∀ e e', Precedes (history sha ops) e e' →
    ∀ identity identity' request waitForSignal now' view,
    AcceptsRequest e identity request waitForSignal view → SameRequestId identity identity' →
    e'.op = .acceptRun identity' request waitForSignal now' →
    (∃ view', e'.result = .ok (.run view') ∧ view'.runId = view.runId ∧ view'.replayed = true) ∧
      e'.after = e'.before
  /-- Another request under the same request id is refused and changes nothing. -/
  request_reused : ∀ e e', Precedes (history sha ops) e e' →
    ∀ identity identity' request request' waitForSignal waitForSignal' now' view,
    AcceptsRequest e identity request waitForSignal view → SameRequestId identity identity' →
    e'.op = .acceptRun identity' request' waitForSignal' now' →
    ¬(request' = request ∧ waitForSignal' = waitForSignal) →
    e'.result = .error
        ⟨.idempotencyConflict, "request id was reused with different durable input"⟩ ∧
      e'.after = e'.before
  /-- An accepted signal has one event, one inbox record and one message. -/
  command_once : ∀ e ∈ history sha ops, ∀ t command, AcceptsSignal e t command →
    commandEvents (run sha ops) t command.commandId = 1 ∧
      inboxRecords (run sha ops) t command.commandId = 1 ∧
      commandMessages (run sha ops) t command.commandId = 1
  /-- The same signal again changes nothing. -/
  command_repeated : ∀ e e', Precedes (history sha ops) e e' →
    ∀ identity command availableAt occurredAt, AcceptsSignal e identity.tenantId.val command →
    e'.op = .acceptSignal identity command availableAt occurredAt →
    (∃ view, e'.result = .ok (.run view) ∧ view.replayed = true) ∧ e'.after = e'.before
  /-- Another signal under the same command id changes nothing, and is refused as a conflict when
      its run exists. -/
  command_reused : ∀ e e', Precedes (history sha ops) e e' →
    ∀ identity command command' availableAt occurredAt,
    AcceptsSignal e identity.tenantId.val command →
    e'.op = .acceptSignal identity command' availableAt occurredAt →
    command'.commandId = command.commandId → command' ≠ command →
    e'.after = e'.before ∧ (e'.before.runs (identity.tenantId.val, command'.runId.val) ≠ none →
      e'.result = .error
        ⟨.idempotencyConflict, "signal command id conflicts with an existing command"⟩)
  /-- A run has at most 32 accepted resume commands. -/
  resumes_bounded : ∀ t r (ids : Finset String), (∀ c ∈ ids, ∃ e ∈ history sha ops, ∃ command,
    AcceptsSignal e t command ∧ command.commandId.val = c ∧ command.commandType = .resume ∧
      command.runId.val = r) → ids.card ≤ 32

/-! ## What the store remembers -/

theorem idempotency_kept {key : String × String} {entry : IdempotencyRecord}
    (hinv : StoreInvariant sha s) {op : Op} (hop : op.isCommandCall)
    (h : s.idempotency key = some entry) : (step sha s op).2.idempotency key = some entry := by
  have hstep := step_command hinv hop
  generalize (step sha s op).1 = result at hstep
  generalize (step sha s op).2 = s' at hstep ⊢
  cases hstep with
  | quiet _ _ _ hquiet => rw [hquiet.idempotency]; exact h
  | request identity request waitForSignal now traceRef drafts appended last projected run _ hnew =>
    have hwritten := hnew.written hinv.ledger
    obtain ⟨fingerprint, hidempotency⟩ := hwritten.idempotency
    rw [hidempotency, Function.update_of_ne, h]
    intro heq
    rw [heq, hwritten.absent] at h
    cases h
  | transition t runId eventType operationId actor ref failureCode attributes now current draft
      appended last projected run _ hnew =>
    rw [hnew.append.store]; exact h
  | signal identity command availableAt occurredAt current drafts appended last projected run _ hnew =>
    rw [(hnew.written hinv.ledger).idempotency]; exact h

/-- The inbox holds the message. -/
def Remembered (key : DeliveryKey) (message : Message) (s : Store) : Prop :=
  ∃ record, s.deliveries.lookup key = some record ∧ record.message = message

theorem inbox_kept {t c : String} {message : Message} (hinv : StoreInvariant sha s) {op : Op}
    (hop : op.isCommandCall) (h : Remembered (t, .inbox, c) message s) :
    Remembered (t, .inbox, c) message (step sha s op).2 := by
  have hstep := step_command hinv hop
  generalize (step sha s op).1 = result at hstep
  generalize (step sha s op).2 = s' at hstep ⊢
  obtain ⟨record, hrecord, hmessage⟩ := h
  cases hstep with
  | quiet _ _ _ hquiet =>
    have hk := hquiet.messages (t, .inbox, c)
    rw [hrecord] at hk
    obtain ⟨record', hrecord', hmessage'⟩ := Option.map_eq_some_iff.mp hk
    exact ⟨record', hrecord', hmessage'.trans hmessage⟩
  | request identity request waitForSignal now traceRef drafts appended last projected run _ hnew =>
    exact ⟨record, by rw [(hnew.written hinv.ledger).lookup]; exact hrecord, hmessage⟩
  | transition t runId eventType operationId actor ref failureCode attributes now current draft
      appended last projected run _ hnew =>
    exact ⟨record, by rw [hnew.append.lookup_inbox]; exact hrecord, hmessage⟩
  | signal identity command availableAt occurredAt current drafts appended last projected run _ hnew =>
    have hwritten := hnew.written hinv.ledger
    refine ⟨record, ?_, hmessage⟩
    rw [hwritten.lookup, hrecord]
    intro heq
    obtain ⟨rfl, rfl⟩ := Prod.mk.inj heq
    rw [hwritten.absent] at hrecord
    cases hrecord

/-- A run stays. -/
theorem run_kept {key : String × String} (hinv : StoreInvariant sha s) {op : Op}
    (hop : op.isCommandCall) (h : ∃ run, s.runs key = some run) :
    ∃ run, (step sha s op).2.runs key = some run := by
  have hstep := step_command hinv hop
  generalize (step sha s op).1 = result at hstep
  generalize (step sha s op).2 = s' at hstep ⊢
  have hupdate : ∀ (key' : String × String) (run : RunView),
      s'.runs = Function.update s.runs key' (some run) → ∃ run, s'.runs key = some run := by
    intro key' run hruns
    rw [hruns]
    by_cases hk : key = key'
    · subst hk; exact ⟨run, Function.update_self ..⟩
    · rw [Function.update_of_ne hk]; exact h
  cases hstep with
  | quiet _ _ _ hquiet => rw [hquiet.runs]; exact h
  | request identity request waitForSignal now traceRef drafts appended last projected run _ hnew =>
    obtain ⟨run', hruns, -⟩ := (hnew.written hinv.ledger).runs
    exact hupdate _ _ hruns
  | transition t runId eventType operationId actor ref failureCode attributes now current draft
      appended last projected run _ hnew =>
    obtain ⟨run', -, -, -, hruns⟩ := hnew.append.single hinv.ledger
    exact hupdate _ _ hruns
  | signal identity command availableAt occurredAt current drafts appended last projected run _ hnew =>
    obtain ⟨-, run', -, hruns, -⟩ := (hnew.written hinv.ledger).runs
    exact hupdate _ _ hruns

/-! ## One call on what is remembered -/

/-- A request id that is known: the fingerprint decides, and nothing changes. -/
theorem acceptRun_known (sha : Sha256) {identity : IdentityContext} (request : InvestigationRequest)
    (waitForSignal : Bool) (now : Datetime) {entry : IdempotencyRecord} {run : RunView}
    (hentry : s.idempotency (identity.tenantId.val, identity.requestId.val) = some entry)
    (hrun : s.runs (identity.tenantId.val, entry.runId.val) = some run) :
    step sha s (.acceptRun identity request waitForSignal now)
      = (if entry.fingerprint = sha.hexdigest (requestText request waitForSignal) then
          .ok (.run { run with replayed := true })
        else .error ⟨.idempotencyConflict, "request id was reused with different durable input"⟩,
        s) := by
  show (Op.acceptRun identity request waitForSignal now).body sha s = _
  by_cases hprint : entry.fingerprint = sha.hexdigest (requestText request waitForSignal)
  · simp only [Op.body, acceptRun, Bind.bind, Exec.andThen, Exec.read, hentry, Exec.require,
      if_pos hprint, Exec.ret, runAt, hrun]
    rfl
  · simp only [Op.body, acceptRun, Bind.bind, Exec.andThen, Exec.read, hentry, Exec.require,
      if_neg hprint]
    rfl

/-- A command id that is known: its record decides, and nothing changes. -/
theorem acceptSignal_known (sha : Sha256) {identity : IdentityContext} {command : SignalCommand}
    (availableAt occurredAt : Datetime) {record : DeliveryRecord} {current : RunView}
    (hrun : s.runs (identity.tenantId.val, command.runId.val) = some current)
    (hrecord : s.deliveries.lookup (identity.tenantId.val, .inbox, command.commandId.val)
      = some record) :
    step sha s (.acceptSignal identity command availableAt occurredAt)
      = (if record.messageType = command.commandType.messageType
            ∧ payloadRunIs record.payload command.runId.val = true then
          .ok (.run { current with replayed := true })
        else .error
          ⟨.idempotencyConflict, "signal command id conflicts with an existing command"⟩, s) := by
  show (Op.acceptSignal identity command availableAt occurredAt).body sha s = _
  by_cases hsame : record.messageType = command.commandType.messageType
      ∧ payloadRunIs record.payload command.runId.val = true
  · simp only [Op.body, acceptSignal, Bind.bind, Exec.andThen, Exec.read, hrun, hrecord, Exec.require,
      if_pos hsame]
    rfl
  · simp only [Op.body, acceptSignal, Bind.bind, Exec.andThen, Exec.read, hrun, hrecord, Exec.require,
      if_neg hsame]
    rfl

/-- A signal for a run that does not exist changes nothing. -/
theorem acceptSignal_missing (sha : Sha256) {identity : IdentityContext} {command : SignalCommand}
    (availableAt occurredAt : Datetime)
    (hrun : s.runs (identity.tenantId.val, command.runId.val) = none) :
    step sha s (.acceptSignal identity command availableAt occurredAt)
      = (.error ⟨.integrityFailure, "durable run does not exist"⟩, s) := by
  show (Op.acceptSignal identity command availableAt occurredAt).body sha s = _
  simp only [Op.body, acceptSignal, Bind.bind, Exec.andThen, Exec.read, hrun]
  rfl

/-! ## What an acceptance leaves -/

/-- An accepted request is in the idempotency table, under the run it is answered with. -/
theorem accepted_request {texts : Set String} (hinv : StoreInvariant sha s)
    (hc : Counted sha texts s) {identity : IdentityContext} {request : InvestigationRequest}
    {waitForSignal : Bool} {now : Datetime} {view : RunView}
    (h : (step sha s (.acceptRun identity request waitForSignal now)).1 = .ok (.run view)) :
    ∃ entry, (step sha s (.acceptRun identity request waitForSignal now)).2.idempotency
        (identity.tenantId.val, identity.requestId.val) = some entry ∧
      entry.fingerprint = sha.hexdigest (requestText request waitForSignal) ∧
      entry.runId = view.runId := by
  revert h
  refine Exec.Sat.outcome (x := (Op.acceptRun identity request waitForSignal now).body sha)
    (P := fun result s' => result = .ok (.run view) → ∃ entry, s'.idempotency
      (identity.tenantId.val, identity.requestId.val) = some entry ∧
      entry.fingerprint = sha.hexdigest (requestText request waitForSignal) ∧
      entry.runId = view.runId) ?_
  refine Exec.Sat.call (acceptRun_sat hinv.ledger identity request waitForSignal now)
    (fun _ _ _ h => by cases h) ?_
  rintro run s' (⟨⟨entry, current, hentry, hprint, hcurrent, hview⟩, rfl⟩ |
    ⟨traceRef, drafts, appended, last, projected, hnew⟩) h
  · obtain ⟨rfl⟩ : run = view := by simpa using h
    obtain ⟨run', hrun', hid, -⟩ := hc.accepted _ _ _ hentry
    rw [hcurrent] at hrun'
    obtain rfl := Option.some.inj hrun'
    exact ⟨entry, hentry, hprint, by rw [hview]; exact hid.symm⟩
  · obtain ⟨rfl⟩ : run = view := by simpa using h
    obtain ⟨run', hruns, hid, -⟩ := (hnew.written hinv.ledger).runs
    have hview := hnew.run
    rw [hruns, Function.update_self] at hview
    obtain rfl := Option.some.inj hview
    refine ⟨{ fingerprint := sha.hexdigest (requestText request waitForSignal),
              runId := runIdOf sha identity request }, ?_, rfl, hid.symm⟩
    rw [hnew.append.store]
    exact Function.update_self ..

/-- The inbox record an accepted signal leaves, and its run. -/
def SignalKnown (tenantId : String) (command : SignalCommand) (s : Store) : Prop :=
  (∃ record, s.deliveries.lookup (tenantId, .inbox, command.commandId.val) = some record ∧
    record.messageType = command.commandType.messageType ∧
    payloadRunIs record.payload command.runId.val = true) ∧
  ∃ run, s.runs (tenantId, command.runId.val) = some run

theorem accepted_signal (hinv : StoreInvariant sha s) {identity : IdentityContext}
    {command : SignalCommand} {availableAt occurredAt : Datetime} {view : RunView}
    (h : (step sha s (.acceptSignal identity command availableAt occurredAt)).1 = .ok (.run view)) :
    SignalKnown identity.tenantId.val command
      (step sha s (.acceptSignal identity command availableAt occurredAt)).2 := by
  revert h
  refine Exec.Sat.outcome (x := (Op.acceptSignal identity command availableAt occurredAt).body sha)
    (P := fun result s' => result = .ok (.run view) →
      SignalKnown identity.tenantId.val command s') ?_
  refine Exec.Sat.call (acceptSignal_sat hinv.ledger identity command availableAt occurredAt)
    (fun _ _ _ h => by cases h) ?_
  rintro run s' (⟨⟨current, record, hcurrent, hrecord, htype, hrun, -⟩, rfl⟩ |
    ⟨current, drafts, appended, last, projected, hnew⟩) _
  · exact ⟨⟨record, hrecord, htype, hrun⟩, current, hcurrent⟩
  · obtain ⟨record, hrecord, htype, hrun⟩ := (hnew.written hinv.ledger).record
    exact ⟨⟨record, hrecord, htype, by simp [payloadRunIs, hrun]⟩, run, hnew.run⟩

theorem CommandType.messageType_inj {k k' : CommandType} (h : k.messageType = k'.messageType) :
    k = k' := by
  cases k with
  | resume => cases k' with
    | resume => rfl
    | cancel => exact absurd h (by decide)
  | cancel => cases k' with
    | resume => exact absurd h (by decide)
    | cancel => rfl

theorem payloadRunIs_unique {payload : Fields} {r r' : String} (h : payloadRunIs payload r = true)
    (h' : payloadRunIs payload r' = true) : r = r' := by
  unfold payloadRunIs at h h'
  split at h
  · rename_i text htext
    rw [htext] at h'
    exact (beq_iff_eq.mp h).symm.trans (beq_iff_eq.mp h')
  · cases h

/-! ## The laws -/

section Laws

variable {ops : List Op} {e e' : HistoryEntry} (hcalls : ∀ op ∈ ops, op.isCommandCall)
  (hfree : sha.CollisionFree (stableTexts sha ops))

theorem precedes_mem (h : Precedes (history sha ops) e e') :
    e ∈ history sha ops ∧ e' ∈ history sha ops := by
  obtain ⟨pre, mid, post, heq⟩ := h
  rw [heq]; simp

/-- The idempotency record an accepted request leaves. -/
def RequestKnown (sha : Sha256) (identity : IdentityContext) (request : InvestigationRequest)
    (waitForSignal : Bool) (view : RunView) (s : Store) : Prop :=
  ∃ entry, s.idempotency (identity.tenantId.val, identity.requestId.val) = some entry ∧
    entry.fingerprint = sha.hexdigest (requestText request waitForSignal) ∧
    entry.runId = view.runId

theorem requestKnown_kept {identity : IdentityContext} {request : InvestigationRequest}
    {waitForSignal : Bool} {view : RunView} (s : Store) (op : Op) (hinv : StoreInvariant sha s)
    (hop : op.isCommandCall) (h : RequestKnown sha identity request waitForSignal view s) :
    RequestKnown sha identity request waitForSignal view (step sha s op).2 := by
  obtain ⟨entry, hentry, hrest⟩ := h
  exact ⟨entry, idempotency_kept hinv hop hentry, hrest⟩

theorem signalKnown_kept {t : String} {command : SignalCommand} (s : Store) (op : Op)
    (hinv : StoreInvariant sha s) (hop : op.isCommandCall) (h : SignalKnown t command s) :
    SignalKnown t command (step sha s op).2 := by
  obtain ⟨⟨record, hrecord, htype, hrun⟩, hexists⟩ := h
  obtain ⟨record', hrecord', hmessage⟩ := inbox_kept hinv hop ⟨record, hrecord, rfl⟩
  simp only [DeliveryRecord.message, Message.mk.injEq] at hmessage
  obtain ⟨-, -, -, -, htype', hpayload⟩ := hmessage
  refine ⟨⟨record', hrecord', htype'.trans htype, ?_⟩, run_kept hinv hop hexists⟩
  rw [hpayload]; exact hrun

include hcalls hfree

theorem acceptsRequest_known (he : e ∈ history sha ops) {identity : IdentityContext}
    {request : InvestigationRequest} {waitForSignal : Bool} {view : RunView}
    (h : AcceptsRequest e identity request waitForSignal view) :
    RequestKnown sha identity request waitForSignal view e.after := by
  obtain ⟨now, hop⟩ := h.op
  have hcalled := history_called he
  have hresult := h.result
  have hentry := hcalled.entry
  rw [hop] at hentry
  rw [hentry] at hresult ⊢
  exact accepted_request hcalled.before (history_counted hcalls hfree he) hresult

omit hcalls hfree in
theorem acceptsSignal_known (he : e ∈ history sha ops) {t : String} {command : SignalCommand}
    (h : AcceptsSignal e t command) : SignalKnown t command e.after := by
  obtain ⟨identity, availableAt, occurredAt, rfl, hop⟩ := h.op
  obtain ⟨view, hresult⟩ := h.result
  have hcalled := history_called he
  have hentry := hcalled.entry
  rw [hop] at hentry
  rw [hentry] at hresult ⊢
  exact accepted_signal hcalled.before hresult

theorem request_accepted_once (he : e ∈ history sha ops) {identity : IdentityContext}
    {request : InvestigationRequest} {waitForSignal : Bool} {view : RunView}
    (h : AcceptsRequest e identity request waitForSignal view) :
    requestedEvents (run sha ops) identity.tenantId.val (requestRefOf sha identity) = 1 ∧
      startMessages (run sha ops) identity.tenantId.val (requestRefOf sha identity) = 1 ∧
      ∀ r, (∃ v, (run sha ops).runs (identity.tenantId.val, r) = some v ∧
        v.requestRef = requestRefOf sha identity) ↔ r = view.runId.val := by
  have hc := counted_run hfree ops hcalls (Set.Subset.refl _)
  obtain ⟨entry, hentry, -, hid⟩ : RequestKnown sha identity request waitForSignal view (run sha ops) :=
    history_ends requestKnown_kept hcalls he (acceptsRequest_known hcalls hfree he h)
  have htext : joinParts [identity.tenantId.val, identity.requestId.val] ∈ stableTexts sha ops := by
    obtain ⟨now, hop⟩ := h.op
    exact ⟨e.op, history_op he, by rw [hop]; simp [Op.stableTexts]⟩
  obtain ⟨hrequested, hstarts⟩ := hc.requests identity.tenantId identity.requestId htext
  rw [hentry] at hrequested hstarts
  refine ⟨hrequested, hstarts, fun r => ⟨?_, ?_⟩⟩
  · -- a run with this reference is the one of the idempotency record
    rintro ⟨v, hv, href⟩
    obtain ⟨t', q', entry', ht', htext', href', hentry', hr⟩ := hc.runs _ _ _ hv
    rw [href] at href'
    obtain ⟨-, rfl⟩ := requestRef_inj hfree htext htext' href'
    rw [hentry] at hentry'
    obtain rfl := Option.some.inj hentry'
    rw [← hr, hid]
  · rintro rfl
    obtain ⟨v, hv, -, href⟩ := hc.accepted _ _ _ hentry
    rw [hid] at hv
    exact ⟨v, hv, href⟩

/-- What the store knows before a later call of what an earlier one accepted. -/
theorem request_known_later (h : Precedes (history sha ops) e e') {identity : IdentityContext}
    {request : InvestigationRequest} {waitForSignal : Bool} {view : RunView}
    (hacc : AcceptsRequest e identity request waitForSignal view) :
    ∃ entry run, e'.before.idempotency (identity.tenantId.val, identity.requestId.val) = some entry ∧
      entry.fingerprint = sha.hexdigest (requestText request waitForSignal) ∧
      e'.before.runs (identity.tenantId.val, entry.runId.val) = some run ∧
      run.runId = view.runId := by
  obtain ⟨he, he'⟩ := precedes_mem h
  obtain ⟨pre, mid, post, hsplit⟩ := h
  obtain ⟨entry, hentry, hprint, hid⟩ :
      RequestKnown sha identity request waitForSignal view e'.before :=
    history_keeps requestKnown_kept hcalls hsplit (acceptsRequest_known hcalls hfree he hacc)
  obtain ⟨run, hrun, hrunId, -⟩ := (history_counted hcalls hfree he').accepted _ _ _ hentry
  exact ⟨entry, run, hentry, hprint, hrun, hrunId.trans hid⟩

theorem request_repeated_harmless (h : Precedes (history sha ops) e e')
    {identity identity' : IdentityContext} {request : InvestigationRequest} {waitForSignal : Bool}
    {now' : Datetime} {view : RunView} (hacc : AcceptsRequest e identity request waitForSignal view)
    (hsame : SameRequestId identity identity')
    (hop : e'.op = .acceptRun identity' request waitForSignal now') :
    (∃ view', e'.result = .ok (.run view') ∧ view'.runId = view.runId ∧ view'.replayed = true) ∧
      e'.after = e'.before := by
  obtain ⟨entry, run, hentry, hprint, hrun, hid⟩ := request_known_later hcalls hfree h hacc
  rw [← hsame.1, ← hsame.2] at hentry
  rw [← hsame.1] at hrun
  have houtcome := (history_called (precedes_mem h).2).outcome
  rw [hop, acceptRun_known sha request waitForSignal now' hentry hrun, if_pos hprint] at houtcome
  obtain ⟨hresult, hafter⟩ := Prod.mk.inj houtcome
  exact ⟨⟨_, hresult, hid, rfl⟩, hafter⟩

theorem request_reused_refused (h : Precedes (history sha ops) e e')
    {identity identity' : IdentityContext} {request request' : InvestigationRequest}
    {waitForSignal waitForSignal' : Bool} {now' : Datetime} {view : RunView}
    (hacc : AcceptsRequest e identity request waitForSignal view)
    (hsame : SameRequestId identity identity')
    (hop : e'.op = .acceptRun identity' request' waitForSignal' now')
    (hdiffer : ¬(request' = request ∧ waitForSignal' = waitForSignal)) :
    e'.result = .error
        ⟨.idempotencyConflict, "request id was reused with different durable input"⟩ ∧
      e'.after = e'.before := by
  obtain ⟨entry, run, hentry, hprint, hrun, hid⟩ := request_known_later hcalls hfree h hacc
  rw [← hsame.1, ← hsame.2] at hentry
  rw [← hsame.1] at hrun
  obtain ⟨he, he'⟩ := precedes_mem h
  -- different inputs have different texts, and these have different fingerprints
  have hne : entry.fingerprint ≠ sha.hexdigest (requestText request' waitForSignal') := by
    intro heq
    rw [hprint] at heq
    have htext : requestText request waitForSignal ∈ stableTexts sha ops := by
      obtain ⟨now, hop⟩ := hacc.op
      exact ⟨e.op, history_op he, by rw [hop]; simp [Op.stableTexts]⟩
    have htext' : requestText request' waitForSignal' ∈ stableTexts sha ops :=
      ⟨e'.op, history_op he', by rw [hop]; simp [Op.stableTexts]⟩
    obtain ⟨hr, hw⟩ := requestText_inj (hfree.hexdigest htext htext' heq)
    exact hdiffer ⟨hr.symm, hw.symm⟩
  have houtcome := (history_called he').outcome
  rw [hop, acceptRun_known sha request' waitForSignal' now' hentry hrun, if_neg hne] at houtcome
  exact Prod.mk.inj houtcome

theorem command_accepted_once (he : e ∈ history sha ops) {t : String} {command : SignalCommand}
    (h : AcceptsSignal e t command) :
    commandEvents (run sha ops) t command.commandId = 1 ∧
      inboxRecords (run sha ops) t command.commandId = 1 ∧
      commandMessages (run sha ops) t command.commandId = 1 := by
  obtain ⟨⟨record, hrecord, -, -⟩, -⟩ : SignalKnown t command (run sha ops) :=
    history_ends signalKnown_kept hcalls he (acceptsSignal_known he h)
  obtain ⟨hevents, hmessages, hinbox⟩ :=
    (counted_run hfree ops hcalls (Set.Subset.refl _)).commands t command.commandId
  rw [hrecord] at hevents hmessages hinbox
  exact ⟨hevents, hinbox, hmessages⟩

omit hfree in
theorem signal_known_later (h : Precedes (history sha ops) e e') {t : String}
    {command : SignalCommand} (hacc : AcceptsSignal e t command) : SignalKnown t command e'.before := by
  obtain ⟨he, -⟩ := precedes_mem h
  obtain ⟨pre, mid, post, hsplit⟩ := h
  exact history_keeps signalKnown_kept hcalls hsplit (acceptsSignal_known he hacc)

omit hfree in
theorem command_repeated_harmless (h : Precedes (history sha ops) e e') {identity : IdentityContext}
    {command : SignalCommand} {availableAt occurredAt : Datetime}
    (hacc : AcceptsSignal e identity.tenantId.val command)
    (hop : e'.op = .acceptSignal identity command availableAt occurredAt) :
    (∃ view, e'.result = .ok (.run view) ∧ view.replayed = true) ∧ e'.after = e'.before := by
  obtain ⟨⟨record, hrecord, htype, hrun⟩, current, hcurrent⟩ := signal_known_later hcalls h hacc
  have houtcome := (history_called (precedes_mem h).2).outcome
  rw [hop, acceptSignal_known sha availableAt occurredAt hcurrent hrecord,
    if_pos ⟨htype, hrun⟩] at houtcome
  obtain ⟨hresult, hafter⟩ := Prod.mk.inj houtcome
  exact ⟨⟨_, hresult, rfl⟩, hafter⟩

omit hfree in
theorem command_reused_refused (h : Precedes (history sha ops) e e') {identity : IdentityContext}
    {command command' : SignalCommand} {availableAt occurredAt : Datetime}
    (hacc : AcceptsSignal e identity.tenantId.val command)
    (hop : e'.op = .acceptSignal identity command' availableAt occurredAt)
    (hid : command'.commandId = command.commandId) (hdiffer : command' ≠ command) :
    e'.after = e'.before ∧ (e'.before.runs (identity.tenantId.val, command'.runId.val) ≠ none →
      e'.result = .error
        ⟨.idempotencyConflict, "signal command id conflicts with an existing command"⟩) := by
  obtain ⟨⟨record, hrecord, htype, hrun⟩, -⟩ := signal_known_later hcalls h hacc
  have houtcome := (history_called (precedes_mem h).2).outcome
  rw [hop] at houtcome
  cases hcurrent : e'.before.runs (identity.tenantId.val, command'.runId.val) with
  | none =>
    rw [acceptSignal_missing sha availableAt occurredAt hcurrent] at houtcome
    exact ⟨(Prod.mk.inj houtcome).2, fun hne => absurd rfl hne⟩
  | some current =>
    -- the record names another type or another run
    have hne : ¬(record.messageType = command'.commandType.messageType ∧
        payloadRunIs record.payload command'.runId.val = true) := by
      rintro ⟨htype', hrun'⟩
      refine hdiffer ?_
      have htypes := CommandType.messageType_inj (htype'.symm.trans htype)
      have hruns := payloadRunIs_unique hrun' hrun
      rcases command with ⟨c, r, k⟩
      rcases command' with ⟨c', r', k'⟩
      obtain rfl := hid
      obtain rfl := htypes
      obtain rfl := Subtype.ext hruns
      rfl
    rw [← hid] at hrecord
    rw [acceptSignal_known sha availableAt occurredAt hcurrent hrecord, if_neg hne] at houtcome
    obtain ⟨hresult, hafter⟩ := Prod.mk.inj houtcome
    exact ⟨hafter, fun _ => hresult⟩

theorem resumes_accepted_bounded {t r : String} {ids : Finset String}
    (h : ∀ c ∈ ids, ∃ e ∈ history sha ops, ∃ command, AcceptsSignal e t command ∧
      command.commandId.val = c ∧ command.commandType = .resume ∧ command.runId.val = r) :
    ids.card ≤ 32 := by
  have hc := counted_run hfree ops hcalls (Set.Subset.refl _)
  have hkeys : ∀ k ∈ ids.image (fun c => ((t, Direction.inbox, c) : DeliveryKey)),
      ∃ v, (run sha ops).deliveries.lookup k = some v ∧ isResumeOf t r v = true := by
    intro k hk
    obtain ⟨c, hcmem, rfl⟩ := Finset.mem_image.mp hk
    obtain ⟨e, he, command, hacc, rfl, htype, rfl⟩ := h c hcmem
    obtain ⟨⟨record, hrecord, hrtype, hrun⟩, -⟩ : SignalKnown t command (run sha ops) :=
      history_ends signalKnown_kept hcalls he (acceptsSignal_known he hacc)
    have hkey := ((storeInvariant_run sha ops).deliveries _ _ hrecord).1
    simp only [recordKey, Prod.mk.injEq] at hkey
    refine ⟨record, hrecord, ?_⟩
    rw [htype] at hrtype
    simp only [isResumeOf, hkey.1, hkey.2.1, hrtype, hrun, beq_self_eq_true, Bool.and_self,
      CommandType.messageType]
  calc ids.card = (ids.image (fun c => ((t, Direction.inbox, c) : DeliveryKey))).card := by
        refine (Finset.card_image_of_injective _ ?_).symm
        intro a b hab
        exact (Prod.mk.inj (Prod.mk.inj hab).2).2
    _ ≤ resumeCount (run sha ops).deliveries t r := Table.card_le_count hkeys
    _ ≤ 32 := hc.resumes t r

end Laws

/-- **Commands are accepted exactly once**: in every history of command calls, mixed with delivery
    and with transitions that record no command. -/
theorem commands_exactly_once (sha : Sha256) (ops : List Op)
    (hcalls : ∀ op ∈ ops, op.isCommandCall) (hfree : sha.CollisionFree (stableTexts sha ops)) :
    CommandLaws sha ops where
  request_once _ he _ _ _ _ h := request_accepted_once hcalls hfree he h
  request_repeated _ _ h _ _ _ _ _ _ := request_repeated_harmless hcalls hfree h
  request_reused _ _ h _ _ _ _ _ _ _ _ := request_reused_refused hcalls hfree h
  command_once _ he _ _ h := command_accepted_once hcalls hfree he h
  command_repeated _ _ h _ _ _ _ := command_repeated_harmless hcalls h
  command_reused _ _ h _ _ _ _ _ := command_reused_refused hcalls h
  resumes_bounded _ _ _ h := resumes_accepted_bounded hcalls hfree h

/-! ## A worked history -/

def caller : IdentityContext where
  tenantId := ⟨"t", computed⟩
  issuer := ⟨"https://i", computed⟩
  subjectId := ⟨"s", computed⟩
  principalKind := .human
  roles := []
  requestId := ⟨"q", computed⟩
  traceId := ⟨"trace", computed⟩

def checkoutRequest : InvestigationRequest where
  incidentId := ⟨"i", computed⟩
  alert := { region := ⟨"r", computed⟩, observedAt := ⟨0, 0⟩,
             failureRate := ⟨['0', '.', '5'], computed⟩, threshold := ⟨['0', '.', '1'], computed⟩ }

/-- The run id of the request under `commandHash`. -/
def commandRunId : Identifier :=
  ⟨"run:" ++ String.ofList (List.replicate 32 '1'), by decide⟩

/-- The texts behind the identifiers of the worked history. -/
def commandTexts : List String :=
  [joinParts ["t", "q"], joinParts ["t", "i", "q"], joinParts [commandRunId.val, "requested"],
   joinParts [commandRunId.val, "temporal-start"],
   joinParts [commandRunId.val, "investigation.requested", "op"], joinParts [commandRunId.val, "c"],
   joinParts [commandRunId.val, "investigation.resume_requested", "c"], joinParts ["other", "c"],
   joinParts ["other", "investigation.resume_requested", "c"]]

def commandHash : Sha256 := Sha256.table commandTexts

def acceptOp : Op := .acceptRun caller checkoutRequest false ⟨0, 0⟩

def resumeOp (runId : Identifier) : Op :=
  .acceptSignal caller { commandId := ⟨"c", computed⟩, runId, commandType := .resume } ⟨0, 0⟩ ⟨0, 0⟩

def requestedOp : Op :=
  .recordTransition "t" commandRunId.val "investigation.requested" "op" "actor"
    (requestRefOf commandHash caller).val none none ⟨0, 0⟩

/-- The errors of the calls of a history. -/
def errorKinds (h : List HistoryEntry) : List (Option ErrorKind) :=
  h.map fun e => match e.result with
    | .ok _ => none
    | .error error => some error.kind

theorem commandHash_collisionFree {ops : List Op}
    (hops : ∀ op ∈ ops, op = acceptOp ∨ op = requestedOp ∨ op = resumeOp commandRunId ∨
      op = resumeOp ⟨"other", by decide⟩) : commandHash.CollisionFree (stableTexts commandHash ops) := by
  refine Sha256.table_collisionFree (by decide) (requestText checkoutRequest false) ?_
  have hrun : runIdOf commandHash caller checkoutRequest = commandRunId :=
    Subtype.ext (by decide +kernel)
  rintro x ⟨op, hop, hx⟩
  rcases hops op hop with rfl | rfl | rfl | rfl
  · simp only [acceptOp, Op.stableTexts, hrun, List.mem_cons, List.not_mem_nil, or_false] at hx
    rcases hx with rfl | rfl | rfl | rfl | rfl
    · exact .inr rfl
    · exact .inl (by decide +kernel)
    · exact .inl (by decide +kernel)
    · exact .inl (by decide +kernel)
    · exact .inl (by decide +kernel)
  · simp only [requestedOp, Op.stableTexts, List.mem_singleton] at hx
    exact .inl (by rw [hx]; decide +kernel)
  · simp only [resumeOp, Op.stableTexts, List.mem_cons, List.not_mem_nil, or_false] at hx
    rcases hx with rfl | rfl
    · exact .inl (by decide +kernel)
    · exact .inl (by decide +kernel)
  · simp only [resumeOp, Op.stableTexts, List.mem_cons, List.not_mem_nil, or_false] at hx
    rcases hx with rfl | rfl
    · exact .inl (by decide +kernel)
    · exact .inl (by decide +kernel)

/-- A request and a resume, each sent twice. -/
theorem commands_exactly_once_repeated :
    errorKinds (history commandHash [acceptOp, resumeOp commandRunId, acceptOp, resumeOp commandRunId])
      = [none, none, none, none] ∧
    CommandLaws commandHash [acceptOp, resumeOp commandRunId, acceptOp, resumeOp commandRunId] := by
  refine ⟨by decide +kernel, commands_exactly_once _ _ ?_ (commandHash_collisionFree ?_)⟩
  · simp [Op.isCommandCall, acceptOp, resumeOp]
  · simp

/-- **What is not promised.**  A transition may record `investigation.requested` under the reference
    of an accepted request, and a command id that was accepted for one run is refused with an
    integrity failure, not a conflict, when it comes back for a run that does not exist. -/
theorem requested_twice_by_transition :
    commandHash.CollisionFree (stableTexts commandHash
      [acceptOp, requestedOp, resumeOp commandRunId, resumeOp ⟨"other", by decide⟩]) ∧
    errorKinds (history commandHash
      [acceptOp, requestedOp, resumeOp commandRunId, resumeOp ⟨"other", by decide⟩])
      = [none, none, none, some .integrityFailure] ∧
    requestedEvents (run commandHash
      [acceptOp, requestedOp, resumeOp commandRunId, resumeOp ⟨"other", by decide⟩]) "t"
      (requestRefOf commandHash caller) = 2 := by
  refine ⟨commandHash_collisionFree (by simp), ?_⟩
  decide +kernel

end Durability

end Aegis
