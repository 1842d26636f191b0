/-
  RECORDS OF THE EVENT LEDGER AND THE RUN PROJECTION.

  A draft is what a caller proposes; an event is a draft with its place in two hash chains, the
  chain of its aggregate and the chain of its tenant.  `eventMaterial` is the text that is hashed:
  every field of the draft, both positions and both previous hashes.

  `reduceRun` is the projection of one event onto a run.  It is a STATE MACHINE over `RunStatus`
  (`allowed`), with one event type that keeps the status (`investigation.resume_requested`), and it
  raises when an event does not fit.
-/
import Mathlib
import Aegis.Domain
import Aegis.Lib.Exec

namespace Aegis

namespace Durability

/-! ## Bounds -/

def maxEventBytes : Nat := 32768

def maxDeliveryBytes : Nat := 8192

def maxEventsPerAppend : Nat := 32

def maxDeliveryAttempts : Nat := 5

def maxResumeCommands : Nat := 32

/-! ## Drafts -/

/-- `EventDraft`: what a caller appends. -/
structure EventDraft where
  eventId : Identifier
  eventType : Identifier
  occurredAt : Datetime
  actorRef : Identifier
  correlationRef : Identifier
  causationRef : Option Identifier
  schemaVersion : Nat
  payload : Fields
  schema_ok : 1 ≤ schemaVersion ∧ schemaVersion ≤ 1000
  payload_ok : payload.entries.length ≤ 32 ∧ payload.size ≤ maxEventBytes

theorem schema_one : 1 ≤ 1 ∧ 1 ≤ 1000 := by decide

theorem payload_empty : (∅ : Fields).entries.length ≤ 32 ∧ Fields.size ∅ ≤ maxEventBytes := by
  decide +kernel

/-- The constructor: the schema version and the payload are checked, and the payload is sorted. -/
def EventDraft.make (eventId eventType : Identifier) (occurredAt : Datetime)
    (actorRef correlationRef : Identifier) (causationRef : Option Identifier) (schemaVersion : Nat)
    (payload : Fields) : Except Error EventDraft :=
  if hs : 1 ≤ schemaVersion ∧ schemaVersion ≤ 1000 then
    if hp : payload.sorted.entries.length ≤ 32 ∧ payload.sorted.size ≤ maxEventBytes then
      .ok { eventId, eventType, occurredAt, actorRef, correlationRef, causationRef, schemaVersion,
            payload := payload.sorted, schema_ok := hs, payload_ok := hp }
    else .error (validationError "EventDraft.payload")
  else .error (validationError "EventDraft.schema_version")

/-- What a validated draft holds. -/
theorem EventDraft.make_ok {eventId eventType : Identifier} {occurredAt : Datetime}
    {actorRef correlationRef : Identifier} {causationRef : Option Identifier} {schemaVersion : Nat}
    {payload : Fields} {d : EventDraft}
    (h : EventDraft.make eventId eventType occurredAt actorRef correlationRef causationRef
      schemaVersion payload = .ok d) :
    d.eventId = eventId ∧ d.eventType = eventType ∧ d.occurredAt = occurredAt ∧
      d.actorRef = actorRef ∧ d.correlationRef = correlationRef ∧ d.causationRef = causationRef ∧
      d.schemaVersion = schemaVersion ∧ d.payload = payload.sorted := by
  unfold EventDraft.make at h
  split at h
  · split at h
    · rw [← Except.ok.inj h]; exact ⟨rfl, rfl, rfl, rfl, rfl, rfl, rfl, rfl⟩
    · cases h
  · cases h

/-- `OutboxDraft`. -/
structure OutboxDraft where
  messageId : Identifier
  destination : Identifier
  messageType : Identifier
  availableAt : Datetime
  payload : Fields
  payload_ok : payload.entries.length ≤ 16 ∧ payload.size ≤ maxDeliveryBytes

def OutboxDraft.make (messageId destination messageType : Identifier) (availableAt : Datetime)
    (payload : Fields) : Except Error OutboxDraft :=
  if hp : payload.sorted.entries.length ≤ 16 ∧ payload.sorted.size ≤ maxDeliveryBytes then
    .ok { messageId, destination, messageType, availableAt, payload := payload.sorted,
          payload_ok := hp }
  else .error (validationError "OutboxDraft.payload")

theorem OutboxDraft.make_ok {messageId destination messageType : Identifier}
    {availableAt : Datetime} {payload : Fields} {m : OutboxDraft}
    (h : OutboxDraft.make messageId destination messageType availableAt payload = .ok m) :
    m.messageId = messageId ∧ m.destination = destination ∧ m.messageType = messageType ∧
      m.availableAt = availableAt ∧ m.payload = payload.sorted := by
  unfold OutboxDraft.make at h
  split at h
  · rw [← Except.ok.inj h]; exact ⟨rfl, rfl, rfl, rfl, rfl⟩
  · cases h

/-- `InboxDraft`. -/
structure InboxDraft where
  messageId : Identifier
  source : Identifier
  messageType : Identifier
  payload : Fields
  payload_ok : payload.entries.length ≤ 16 ∧ payload.size ≤ maxDeliveryBytes

def InboxDraft.make (messageId source messageType : Identifier) (payload : Fields) :
    Except Error InboxDraft :=
  if hp : payload.sorted.entries.length ≤ 16 ∧ payload.sorted.size ≤ maxDeliveryBytes then
    .ok { messageId, source, messageType, payload := payload.sorted, payload_ok := hp }
  else .error (validationError "InboxDraft.payload")

theorem InboxDraft.make_ok {messageId source messageType : Identifier} {payload : Fields}
    {m : InboxDraft} (h : InboxDraft.make messageId source messageType payload = .ok m) :
    m.messageId = messageId ∧ m.source = source ∧ m.messageType = messageType ∧
      m.payload = payload.sorted := by
  unfold InboxDraft.make at h
  split at h
  · rw [← Except.ok.inj h]; exact ⟨rfl, rfl, rfl, rfl⟩
  · cases h

/-! ## Events -/

/-- `ApplicationEvent`: a stored event. -/
structure ApplicationEvent where
  tenantId : Identifier
  aggregateType : Identifier
  aggregateId : Identifier
  aggregateSequence : Nat
  tenantCursor : Nat
  eventId : Identifier
  eventType : Identifier
  occurredAt : Datetime
  actorRef : Identifier
  correlationRef : Identifier
  causationRef : Option Identifier
  schemaVersion : Nat
  payload : Fields
  aggregatePreviousHash : Digest
  tenantPreviousHash : Digest
  recordHash : Digest
  sequence_ok : 1 ≤ aggregateSequence
  cursor_ok : 1 ≤ tenantCursor
  schema_ok : 1 ≤ schemaVersion ∧ schemaVersion ≤ 1000

/-- The aggregate an event belongs to, within its tenant. -/
def ApplicationEvent.aggregate (e : ApplicationEvent) : String × String :=
  (e.aggregateType.val, e.aggregateId.val)

/-- `event_material`: the canonical text of everything an event records. -/
def eventMaterial (tenantId aggregateType aggregateId : String)
    (aggregateSequence tenantCursor : Nat) (draft : EventDraft)
    (aggregatePreviousHash tenantPreviousHash : Digest) : String :=
  canonicalJson (.obj [
    ("actor_ref", .str draft.actorRef.val),
    ("aggregate_id", .str aggregateId),
    ("aggregate_previous_hash", .str aggregatePreviousHash.val),
    ("aggregate_sequence", .int aggregateSequence),
    ("aggregate_type", .str aggregateType),
    ("causation_ref", draft.causationRef.elim .null (fun r => .str r.val)),
    ("correlation_ref", .str draft.correlationRef.val),
    ("event_id", .str draft.eventId.val),
    ("event_type", .str draft.eventType.val),
    ("occurred_at", .str draft.occurredAt.utc.isoformat),
    ("payload", draft.payload.toJson),
    ("record_schema_version", .int 1),
    ("schema_version", .int draft.schemaVersion),
    ("tenant_cursor", .int tenantCursor),
    ("tenant_id", .str tenantId),
    ("tenant_previous_hash", .str tenantPreviousHash.val)])

/-- The draft the verifiers rebuild from a stored event: `EventDraft(event_id=event.event_id, ...)`. -/
def ApplicationEvent.draft (e : ApplicationEvent) : Except Error EventDraft :=
  EventDraft.make e.eventId e.eventType e.occurredAt e.actorRef e.correlationRef e.causationRef
    e.schemaVersion e.payload

/-! ## Deliveries -/

inductive DeliveryStatus where
  | pending | claimed | delivered | deadLetter
deriving DecidableEq, Repr

/-- The `direction` of a delivery record. -/
inductive Direction where
  | outbox | inbox
deriving DecidableEq, Repr

/-- `DeliveryRecord`.  Its `claim_token` and `last_error_code` are set by copies that do not
    validate, so they are plain texts. -/
structure DeliveryRecord where
  tenantId : Identifier
  messageId : Identifier
  direction : Direction
  destination : Identifier
  messageType : Identifier
  status : DeliveryStatus
  attempts : Nat
  availableAt : Datetime
  claimToken : Option String
  claimUntil : Option Datetime
  lastErrorCode : Option String
  payload : Fields

/-- `DeliveryClaim`: what a worker holds. -/
structure DeliveryClaim where
  tenantId : Identifier
  messageId : Identifier
  claimToken : Identifier
  destination : Identifier
  messageType : Identifier
  attempt : Nat
  payload : Fields
  attempt_ok : 1 ≤ attempt ∧ attempt ≤ maxDeliveryAttempts

/-! ## Runs -/

inductive RunStatus where
  | queued | running | waiting | completed | failed | cancelRequested | cancelled | timedOut
deriving DecidableEq, Repr

/-- `RunView`: the projection of one run. -/
structure RunView where
  tenantId : Identifier
  runId : Identifier
  incidentId : Identifier
  requestRef : Identifier
  workflowId : Identifier
  status : RunStatus
  version : Nat
  lastCursor : Nat
  createdAt : Datetime
  updatedAt : Datetime
  failureCode : Option String
  replayed : Bool
deriving DecidableEq

/-- `status_by_event`. -/
def statusByEvent : List (String × RunStatus) :=
  [("investigation.requested", .queued),
   ("investigation.started", .running),
   ("investigation.evidence_collected", .running),
   ("investigation.graph_completed", .running),
   ("investigation.waiting", .waiting),
   ("investigation.cancel_requested", .cancelRequested),
   ("investigation.completed", .completed),
   ("investigation.failed", .failed),
   ("investigation.cancelled", .cancelled),
   ("investigation.timed_out", .timedOut)]

/-- The statuses a run may take next. -/
def allowed : RunStatus → List RunStatus
  | .queued => [.running, .queued, .cancelRequested, .failed]
  | .running => [.running, .waiting, .completed, .cancelRequested, .failed, .timedOut]
  | .waiting => [.waiting, .completed, .cancelRequested, .failed, .timedOut]
  | .cancelRequested => [.cancelled]
  | .completed => []
  | .failed => []
  | .cancelled => []
  | .timedOut => []

/-- `_validate_run_transition`. -/
def validateRunTransition (previous current : RunStatus) : Except Error Unit :=
  if current ∈ allowed previous then .ok ()
  else .error ⟨.integrityFailure, "investigation event violates the state machine"⟩

/-- The status an event leads to: the current one for `investigation.resume_requested`. -/
def eventStatus (current : Option RunView) (eventType : String) : Option RunStatus :=
  match current with
  | some run =>
    if eventType = "investigation.resume_requested" then some run.status
    else statusByEvent.lookup eventType
  | none => statusByEvent.lookup eventType

/-- The failure code of an event: absent, or a text. -/
def eventFailureCode (payload : Fields) : Except Error (Option String) :=
  match payload.lookup "failure_code" with
  | none => .ok none
  | some .null => .ok none
  | some (.str s) => .ok (some s)
  | some _ => .error ⟨.integrityFailure, "failure code projection is invalid"⟩

/-- `str(event.payload[key])` as an `Identifier` field. -/
def payloadIdentifier (payload : Fields) (key : String) : Option Identifier :=
  (payload.lookup key).bind Json.identifier?

/-- The run a first event starts; `none` when a field is missing or is no identifier. -/
def startRun (status : RunStatus) (event : ApplicationEvent) : Option RunView := do
  let runId ← payloadIdentifier event.payload "run_id"
  let incidentId ← payloadIdentifier event.payload "incident_id"
  let requestRef ← payloadIdentifier event.payload "request_ref"
  let workflowId ← payloadIdentifier event.payload "workflow_id"
  some { tenantId := event.tenantId, runId, incidentId, requestRef, workflowId, status,
         version := event.aggregateSequence, lastCursor := event.tenantCursor,
         createdAt := event.occurredAt, updatedAt := event.occurredAt,
         failureCode := none, replayed := false }

/-- `reduce_run`: one event projected onto a run. -/
def reduceRun (current : Option RunView) (event : ApplicationEvent) : Except Error RunView :=
  match eventStatus current event.eventType.val with
  | none => .error ⟨.integrityFailure, "unknown investigation event type"⟩
  | some status => do
    let failureCode ← eventFailureCode event.payload
    match current with
    | none =>
      if event.eventType.val ≠ "investigation.requested" then
        .error ⟨.integrityFailure, "investigation projection does not start at requested"⟩
      else match startRun status event with
        | none => .error ⟨.integrityFailure, "requested event cannot build a run projection"⟩
        | some run => .ok run
    | some run =>
      if event.aggregateSequence ≠ run.version + 1 then
        .error ⟨.integrityFailure, "projection observed a non-contiguous aggregate sequence"⟩
      else do
        validateRunTransition run.status status
        .ok { run with failureCode, lastCursor := event.tenantCursor, replayed := false, status,
                       updatedAt := event.occurredAt, version := event.aggregateSequence }

/-- What a projected event leaves: the position of the event, never marked as a replay. -/
theorem reduceRun_position {current : Option RunView} {event : ApplicationEvent} {run : RunView}
    (h : reduceRun current event = .ok run) :
    run.version = event.aggregateSequence ∧ run.lastCursor = event.tenantCursor ∧
      run.replayed = false := by
  unfold reduceRun at h
  split at h
  · cases h
  · obtain ⟨code, -, h⟩ := except_bind_ok.mp h
    cases current with
    | none =>
      dsimp only at h
      split at h
      · cases h
      · split at h
        · cases h
        · rename_i run' hstart
          simp only [startRun, Option.bind_eq_bind, Option.bind_eq_some_iff] at hstart
          obtain ⟨_, _, _, _, _, _, _, _, hrun⟩ := hstart
          rw [← Except.ok.inj h, ← Option.some.inj hrun]
          exact ⟨rfl, rfl, rfl⟩
    | some prev =>
      dsimp only at h
      split at h
      · cases h
      · obtain ⟨-, -, h⟩ := except_bind_ok.mp h
        rw [← Except.ok.inj h]
        exact ⟨rfl, rfl, rfl⟩

/-! ## Commands -/

inductive CommandType where
  | resume | cancel
deriving DecidableEq, Repr

/-- `f"investigation.{command_type}"`. -/
def CommandType.messageType : CommandType → Identifier
  | .resume => ⟨"investigation.resume", by decide⟩
  | .cancel => ⟨"investigation.cancel", by decide⟩

/-- `f"investigation.{command_type}_requested"`. -/
def CommandType.eventType : CommandType → Identifier
  | .resume => ⟨"investigation.resume_requested", by decide⟩
  | .cancel => ⟨"investigation.cancel_requested", by decide⟩

/-- `SignalCommand`. -/
structure SignalCommand where
  commandId : Identifier
  runId : Identifier
  commandType : CommandType
deriving DecidableEq

/-- `LegacyEvent`. -/
structure LegacyEvent where
  eventType : Identifier
  occurredAt : Datetime
  payload : Fields

/-- `ProjectionCheckpoint`. -/
structure ProjectionCheckpoint where
  tenantId : Identifier
  projectionName : Identifier
  lastCursor : Nat
  lastEventHash : Digest
  version : Nat

end Durability

end Aegis
