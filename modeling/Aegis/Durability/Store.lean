/-
  THE IN-MEMORY DURABLE STORE: its state and its operations, as the source computes them.

  One state, eight tables.  Every write of the ledger goes through `appendLocked`, which checks
  everything first, builds the batch on both hash chains, projects it onto an overlay of the runs
  and only then writes.  `acceptRun`, `acceptSignal`, `recordTransition` and `replayLegacy` are its
  callers; `claimOutbox`, `completeOutbox` and `failOutbox` move delivery records; the rebuilds
  replay the projection.

  Tables that the source only reads by key are functions; `deliveries`, which it also walks, is an
  association list with distinct keys.  The clock is read by the caller: each reading is an argument
  of the operation, in the order the source takes them.
-/
import Mathlib
import Aegis.Lib.Exec
import Aegis.Lib.Table
import Aegis.Durability.Records

namespace Aegis

namespace Durability

/-! ## State -/

/-- `_AggregateHead`. -/
structure AggregateHead where
  sequence : Nat := 0
  recordHash : Digest := zeroHash

/-- `_TenantHead`. -/
structure TenantHead where
  cursor : Nat := 0
  recordHash : Digest := zeroHash

/-- `_IdempotencyRecord`. -/
structure IdempotencyRecord where
  fingerprint : Digest
  runId : Identifier

/-- The key of a delivery record: tenant, direction, message id. -/
abbrev DeliveryKey := String × Direction × String

abbrev Deliveries := AList (fun _ : DeliveryKey => DeliveryRecord)

/-- The tables of `InMemoryDurability`. -/
structure Store where
  events : String → List ApplicationEvent
  aggregateHeads : String × String × String → Option AggregateHead
  tenantHeads : String → Option TenantHead
  eventIds : Finset (String × String)
  idempotency : String × String → Option IdempotencyRecord
  deliveries : Deliveries
  runs : String × String → Option RunView
  projectionCheckpoints : String × String → Option ProjectionCheckpoint

/-- `InMemoryDurability(clock=...)`. -/
def Store.empty : Store where
  events := fun _ => []
  aggregateHeads := fun _ => none
  tenantHeads := fun _ => none
  eventIds := ∅
  idempotency := fun _ => none
  deliveries := ∅
  runs := fun _ => none
  projectionCheckpoints := fun _ => none

/-- `self._aggregate_heads.get(key, _AggregateHead())`. -/
def Store.aggregateHead (s : Store) (tenantId aggregateType aggregateId : String) : AggregateHead :=
  (s.aggregateHeads (tenantId, aggregateType, aggregateId)).getD {}

/-- `self._tenant_heads.get(tenant_id, _TenantHead())`. -/
def Store.tenantHead (s : Store) (tenantId : String) : TenantHead :=
  (s.tenantHeads tenantId).getD {}

abbrev Action (α : Type) : Type := Exec Error Store α

/-! ## Appending -/

/-- One event of a batch: the draft at its place in both chains. -/
def buildEvent (sha : Sha256) (tenantId aggregateType aggregateId : String)
    (sequence cursor : Nat) (aggregatePreviousHash tenantPreviousHash : Digest)
    (draft : EventDraft) : Except Error ApplicationEvent := do
  let tenant ← Identifier.parse "ApplicationEvent.tenant_id" tenantId
  let kind ← Identifier.parse "ApplicationEvent.aggregate_type" aggregateType
  let aggregate ← Identifier.parse "ApplicationEvent.aggregate_id" aggregateId
  .ok { tenantId := tenant, aggregateType := kind, aggregateId := aggregate,
        aggregateSequence := sequence + 1, tenantCursor := cursor + 1,
        eventId := draft.eventId, eventType := draft.eventType, occurredAt := draft.occurredAt,
        actorRef := draft.actorRef, correlationRef := draft.correlationRef,
        causationRef := draft.causationRef, schemaVersion := draft.schemaVersion,
        payload := draft.payload, aggregatePreviousHash, tenantPreviousHash,
        recordHash := sha.hexdigest (eventMaterial tenantId aggregateType aggregateId
          (sequence + 1) (cursor + 1) draft aggregatePreviousHash tenantPreviousHash),
        sequence_ok := Nat.succ_pos _, cursor_ok := Nat.succ_pos _, schema_ok := draft.schema_ok }

/-- The loop over the drafts.  `sequence` and `cursor` are the positions of the event before:
    `expected_version + offset - 1` and `tenant_head.cursor + offset - 1`. -/
def buildEvents (sha : Sha256) (tenantId aggregateType aggregateId : String) :
    Nat → Nat → Digest → Digest → List EventDraft → Except Error (List ApplicationEvent)
  | _, _, _, _, [] => .ok []
  | sequence, cursor, aggregatePreviousHash, tenantPreviousHash, draft :: drafts => do
    let event ← buildEvent sha tenantId aggregateType aggregateId sequence cursor
      aggregatePreviousHash tenantPreviousHash draft
    let rest ← buildEvents sha tenantId aggregateType aggregateId (sequence + 1) (cursor + 1)
      event.recordHash event.recordHash drafts
    .ok (event :: rest)

/-- The loop over the appended events: `projected` is the overlay of the runs. -/
def projectEvents (runs : String × String → Option RunView) :
    (String × String → Option RunView) → List ApplicationEvent →
      Except Error (String × String → Option RunView)
  | projected, [] => .ok projected
  | projected, event :: events =>
    if event.aggregateType.val ≠ "investigation" then projectEvents runs projected events
    else do
      let key := (event.tenantId.val, event.aggregateId.val)
      let current := (projected key).orElse fun _ => runs key
      let run ← reduceRun current event
      projectEvents runs (Function.update projected key (some run)) events

/-- The record of a new outbox message. -/
def outboxRecord (tenant : Identifier) (message : OutboxDraft) : DeliveryRecord :=
  { tenantId := tenant, messageId := message.messageId, direction := .outbox,
    destination := message.destination, messageType := message.messageType, status := .pending,
    attempts := 0, availableAt := message.availableAt, claimToken := none, claimUntil := none,
    lastErrorCode := none, payload := message.payload }

/-- The record of a new inbox message: it is delivered as it is recorded. -/
def inboxRecord (tenant : Identifier) (occurredAt : Datetime) (message : InboxDraft) :
    DeliveryRecord :=
  { tenantId := tenant, messageId := message.messageId, direction := .inbox,
    destination := ⟨"application", by decide⟩, messageType := message.messageType,
    status := .delivered, attempts := 1, availableAt := occurredAt, claimToken := none,
    claimUntil := none, lastErrorCode := none, payload := message.payload }

/-- The delivery records after a batch. -/
def insertDeliveries (deliveries : Deliveries) (tenant : Identifier) (occurredAt : Datetime)
    (outbox : List OutboxDraft) (inbox : List InboxDraft) : Deliveries :=
  let deliveries := Table.insertAll (fun m : OutboxDraft => (tenant.val, .outbox, m.messageId.val))
    (outboxRecord tenant) deliveries outbox
  Table.insertAll (fun m : InboxDraft => (tenant.val, .inbox, m.messageId.val))
    (inboxRecord tenant occurredAt) deliveries inbox

/-- The writes of an append that passed its checks; `last` is the last appended event. -/
def commitAppend (tenantId aggregateType aggregateId : String) (appended : List ApplicationEvent)
    (last : ApplicationEvent) (outbox : List OutboxDraft) (inbox : List InboxDraft)
    (projected : String × String → Option RunView) (s : Store) : Store :=
  { s with
    eventIds := s.eventIds ∪ (appended.map fun e => (tenantId, e.eventId.val)).toFinset
    events := Function.update s.events tenantId (s.events tenantId ++ appended)
    aggregateHeads := Function.update s.aggregateHeads (tenantId, aggregateType, aggregateId)
      (some { sequence := last.aggregateSequence, recordHash := last.recordHash })
    tenantHeads := Function.update s.tenantHeads tenantId
      (some { cursor := last.tenantCursor, recordHash := last.recordHash })
    deliveries := insertDeliveries s.deliveries last.tenantId last.occurredAt outbox inbox
    runs := fun key => (projected key).orElse fun _ => s.runs key }

/-- `_append_locked`. -/
def appendLocked (sha : Sha256) (tenantId aggregateType aggregateId : String)
    (expectedVersion : Int) (drafts : List EventDraft) (outbox : List OutboxDraft)
    (inbox : List InboxDraft) : Action (List ApplicationEvent) := do
  let s ← Exec.read
  let aggregateHead := s.aggregateHead tenantId aggregateType aggregateId
  let tenantHead := s.tenantHead tenantId
  Exec.require ((aggregateHead.sequence : Int) = expectedVersion)
    ⟨.concurrencyConflict, "aggregate version changed"⟩
  Exec.require (drafts.map (·.eventId.val)).Nodup
    ⟨.idempotencyConflict, "event batch contains duplicate event ids"⟩
  Exec.require (∀ d ∈ drafts, (tenantId, d.eventId.val) ∉ s.eventIds)
    ⟨.idempotencyConflict, "event id already exists"⟩
  Exec.require (outbox.map (·.messageId.val)).Nodup
    ⟨.idempotencyConflict, "outbox batch contains duplicate message ids"⟩
  Exec.require (∀ m ∈ outbox, (tenantId, Direction.outbox, m.messageId.val) ∉ s.deliveries)
    ⟨.idempotencyConflict, "outbox message already exists"⟩
  Exec.require (inbox.map (·.messageId.val)).Nodup
    ⟨.idempotencyConflict, "inbox batch contains duplicate message ids"⟩
  Exec.require (∀ m ∈ inbox, (tenantId, Direction.inbox, m.messageId.val) ∉ s.deliveries)
    ⟨.idempotencyConflict, "inbox message already exists"⟩
  let appended ← Exec.lift (buildEvents sha tenantId aggregateType aggregateId
    aggregateHead.sequence tenantHead.cursor aggregateHead.recordHash tenantHead.recordHash drafts)
  let projected ← Exec.lift (projectEvents s.runs (fun _ => none) appended)
  match appended.getLast? with
  | none => Exec.raise ⟨.indexError, "list index out of range"⟩
  | some last => do
    Exec.modify (commitAppend tenantId aggregateType aggregateId appended last outbox inbox projected)
    pure appended

/-- `append`. -/
def append (sha : Sha256) (tenantId aggregateType aggregateId : String) (expectedVersion : Int)
    (drafts : List EventDraft) (outbox : List OutboxDraft) (inbox : List InboxDraft) :
    Action (List ApplicationEvent) := do
  Exec.require (drafts ≠ [] ∧ drafts.length ≤ maxEventsPerAppend)
    ⟨.valueError, "event batch is outside the permitted bound"⟩
  appendLocked sha tenantId aggregateType aggregateId expectedVersion drafts outbox inbox

/-- `self._runs[key]`. -/
def runAt (key : String × String) : Action RunView := do
  let s ← Exec.read
  match s.runs key with
  | none => Exec.raise ⟨.keyError, "run"⟩
  | some run => pure run

/-! ## Accepting a run -/

/-- The value of a hexadecimal number. -/
def hexValue (cs : List Char) : Nat := cs.foldl (fun n c => n * 16 + hexVal c) 0

/-- `durable_trace_reference(correlation_ref).traceparent`: digits of two digests, and a sampling
    flag from the first eight bytes of a third. -/
def durableTraceReference (sha : Sha256) (correlationRef : String) : Except Error String :=
  let traceId := (sha.digits ("trace:" ++ correlationRef)).take 32
  let spanId := (sha.digits ("span:" ++ correlationRef)).take 16
  let sampled := hexValue ((sha.digits correlationRef).take 16) % 10000 < 1000
  if traceId = List.replicate 32 '0' then .error (validationError "TraceReference.trace_id")
  else if spanId = List.replicate 16 '0' then .error (validationError "TraceReference.span_id")
  else .ok ("00-" ++ String.ofList traceId ++ "-" ++ String.ofList spanId ++ "-"
    ++ if sampled then "01" else "00")

/-- The text a run request is fingerprinted by. -/
def requestText (request : InvestigationRequest) (waitForSignal : Bool) : String :=
  canonicalJson (.obj [("request", request.modelDump), ("wait_for_signal", .bool waitForSignal)])

/-- `stable_id("run", tenant_id, incident_id, request_id, length=32)`. -/
def runIdOf (sha : Sha256) (identity : IdentityContext) (request : InvestigationRequest) :
    Identifier :=
  stableIdentifier sha "run"
    [identity.tenantId.val, request.incidentId.val, identity.requestId.val] 32

def requestRefOf (sha : Sha256) (identity : IdentityContext) : Identifier :=
  stableIdentifier sha "request" [identity.tenantId.val, identity.requestId.val] 32

def tenantRefOf (sha : Sha256) (identity : IdentityContext) : Identifier :=
  stableIdentifier sha "tenant" [identity.tenantId.val] 32

def workflowIdOf (sha : Sha256) (identity : IdentityContext) (request : InvestigationRequest) :
    Identifier :=
  stableIdentifier sha "workflow" [(tenantRefOf sha identity).val,
    (runIdOf sha identity request).val, (requestRefOf sha identity).val] 40

/-- The id of the event that starts a run. -/
def requestedEventId (sha : Sha256) (runId : String) : Identifier :=
  stableIdentifier sha "event" [runId, "requested"] 32

/-- The id of the message that starts the workflow of a run. -/
def startMessageId (sha : Sha256) (runId : String) : Identifier :=
  stableIdentifier sha "outbox" [runId, "temporal-start"] 32

/-- The event draft and the outbox draft of a new run. -/
def runDrafts (sha : Sha256) (identity : IdentityContext) (request : InvestigationRequest)
    (waitForSignal : Bool) (traceRef : String) (now : Datetime) :
    Except Error (EventDraft × OutboxDraft) := do
  let runId := runIdOf sha identity request
  let requestRef := requestRefOf sha identity
  let tenantRef := tenantRefOf sha identity
  let workflowId := workflowIdOf sha identity request
  let actor := actorRef sha identity
  let draft ← EventDraft.make (requestedEventId sha runId.val)
    ⟨"investigation.requested", by decide⟩ now actor requestRef none 1
    (Fields.of [("incident_id", .str request.incidentId.val), ("request", request.modelDump),
      ("request_ref", .str requestRef.val), ("run_id", .str runId.val),
      ("tenant_ref", .str tenantRef.val), ("trace_ref", .str traceRef),
      ("wait_for_signal", .bool waitForSignal), ("workflow_id", .str workflowId.val)])
  let outbox ← OutboxDraft.make (startMessageId sha runId.val) ⟨"temporal", by decide⟩
    ⟨"investigation.start", by decide⟩ now
    (Fields.of [("actor_ref", .str actor.val), ("request_ref", .str requestRef.val),
      ("run_id", .str runId.val), ("tenant_ref", .str tenantRef.val), ("trace_ref", .str traceRef),
      ("wait_for_signal", .bool waitForSignal), ("workflow_id", .str workflowId.val)])
  .ok (draft, outbox)

/-- `self._idempotency[key] = record`, or `pop(key, None)`. -/
def Store.setIdempotency (key : String × String) (record : Option IdempotencyRecord) (s : Store) :
    Store :=
  { s with idempotency := Function.update s.idempotency key record }

/-- `accept_run`.  The idempotency record is written before the append and taken back when the
    append raises. -/
def acceptRun (sha : Sha256) (identity : IdentityContext) (request : InvestigationRequest)
    (waitForSignal : Bool) (now : Datetime) : Action RunView := do
  let fingerprint := sha.hexdigest (requestText request waitForSignal)
  let key := (identity.tenantId.val, identity.requestId.val)
  let s ← Exec.read
  match s.idempotency key with
  | some existing => do
    Exec.require (existing.fingerprint = fingerprint)
      ⟨.idempotencyConflict, "request id was reused with different durable input"⟩
    let run ← runAt (identity.tenantId.val, existing.runId.val)
    pure { run with replayed := true }
  | none => do
    let runId := runIdOf sha identity request
    let traceRef ← Exec.lift (durableTraceReference sha identity.traceId.val)
    let drafts ← Exec.lift (runDrafts sha identity request waitForSignal traceRef now)
    Exec.modify (Store.setIdempotency key (some { fingerprint, runId }))
    let _ ← Exec.onError
      (appendLocked sha identity.tenantId.val "investigation" runId.val 0 [drafts.1] [drafts.2] [])
      (Store.setIdempotency key none)
    runAt (identity.tenantId.val, runId.val)

/-! ## Transitions and signals -/

/-- The payload of a transition: the run, the attributes, then the failure code. -/
def transitionPayload (runId : String) (failureCode : Option String) (attributes : Option Fields) :
    Fields :=
  let payload := Fields.of [("run_id", .str runId)]
  let payload := match attributes with
    | none => payload
    | some attributes => payload.update (attributes.entries.map fun e => (e.1, e.2))
  match failureCode with
  | none => payload
  | some code => payload.insert "failure_code" (.str code)

/-- `stable_id("event", run_id, event_type, operation_id, length=32)`. -/
def transitionEventId (sha : Sha256) (runId eventType operationId : String) : Identifier :=
  stableIdentifier sha "event" [runId, eventType, operationId] 32

/-- The draft of a transition; its references are validated as identifiers. -/
def transitionDraft (sha : Sha256) (runId eventType operationId actorRef requestRef : String)
    (failureCode : Option String) (attributes : Option Fields) (now : Datetime) :
    Except Error EventDraft := do
  let kind ← Identifier.parse "EventDraft.event_type" eventType
  let actor ← Identifier.parse "EventDraft.actor_ref" actorRef
  let request ← Identifier.parse "EventDraft.correlation_ref" requestRef
  let operation ← Identifier.parse "EventDraft.causation_ref" operationId
  EventDraft.make (transitionEventId sha runId eventType operationId) kind now actor request
    (some operation) 1 (transitionPayload runId failureCode attributes)

/-- `record_transition`. -/
def recordTransition (sha : Sha256) (tenantId runId eventType operationId actorRef requestRef : String)
    (failureCode : Option String) (attributes : Option Fields) (now : Datetime) :
    Action RunView := do
  let s ← Exec.read
  match s.runs (tenantId, runId) with
  | none => Exec.raise ⟨.integrityFailure, "durable run does not exist"⟩
  | some current =>
    if (tenantId, (transitionEventId sha runId eventType operationId).val) ∈ s.eventIds then
      pure { current with replayed := true }
    else do
      let draft ← Exec.lift (transitionDraft sha runId eventType operationId actorRef requestRef
        failureCode attributes now)
      let _ ← appendLocked sha tenantId "investigation" runId current.version [draft] [] []
      runAt (tenantId, runId)

/-- `record.payload.get("run_id") == run_id`. -/
def payloadRunIs (payload : Fields) (runId : String) : Bool :=
  match payload.lookup "run_id" with
  | some (.str s) => s == runId
  | _ => false

/-- A record of a resume command of a run. -/
def isResumeOf (tenantId runId : String) (record : DeliveryRecord) : Bool :=
  record.tenantId.val == tenantId && record.direction == .inbox
    && record.messageType.val == "investigation.resume" && payloadRunIs record.payload runId

/-- The resume commands a run has accepted. -/
def resumeCount (deliveries : Deliveries) (tenantId runId : String) : Nat :=
  Table.count (isResumeOf tenantId runId) deliveries

/-- `stable_id("outbox", run_id, command_id, length=32)`. -/
def signalMessageId (sha : Sha256) (command : SignalCommand) : Identifier :=
  stableIdentifier sha "outbox" [command.runId.val, command.commandId.val] 32

/-- The drafts of a signal: inbox record, outbox message, event.  The clock is read twice, for the
    message and for the event. -/
def signalDrafts (sha : Sha256) (identity : IdentityContext) (command : SignalCommand)
    (current : RunView) (availableAt occurredAt : Datetime) :
    Except Error (InboxDraft × OutboxDraft × EventDraft) := do
  let actor := actorRef sha identity
  let inbox ← InboxDraft.make command.commandId ⟨"api", by decide⟩ command.commandType.messageType
    (Fields.of [("actor_ref", .str actor.val), ("command_id", .str command.commandId.val),
      ("run_id", .str command.runId.val)])
  let outbox ← OutboxDraft.make (signalMessageId sha command) ⟨"temporal", by decide⟩
    command.commandType.eventType availableAt
    (Fields.of [("command_ref", .str command.commandId.val), ("run_id", .str command.runId.val),
      ("workflow_id", .str current.workflowId.val)])
  let draft ← EventDraft.make
    (transitionEventId sha command.runId.val command.commandType.eventType.val
      command.commandId.val)
    command.commandType.eventType occurredAt actor current.requestRef (some command.commandId) 1
    (Fields.of [("command_ref", .str command.commandId.val), ("run_id", .str command.runId.val)])
  .ok (inbox, outbox, draft)

/-- `accept_signal`. -/
def acceptSignal (sha : Sha256) (identity : IdentityContext) (command : SignalCommand)
    (availableAt occurredAt : Datetime) : Action RunView := do
  let s ← Exec.read
  match s.runs (identity.tenantId.val, command.runId.val) with
  | none => Exec.raise ⟨.integrityFailure, "durable run does not exist"⟩
  | some current =>
    match s.deliveries.lookup (identity.tenantId.val, .inbox, command.commandId.val) with
    | some existing => do
      Exec.require (existing.messageType = command.commandType.messageType
          ∧ payloadRunIs existing.payload command.runId.val = true)
        ⟨.idempotencyConflict, "signal command id conflicts with an existing command"⟩
      pure { current with replayed := true }
    | none => do
      Exec.require (command.commandType = .resume →
          resumeCount s.deliveries identity.tenantId.val command.runId.val < maxResumeCommands)
        ⟨.payloadRejected, "run resume command bound exceeded"⟩
      let drafts ← Exec.lift (signalDrafts sha identity command current availableAt occurredAt)
      let _ ← appendLocked sha identity.tenantId.val "investigation" command.runId.val
        current.version [drafts.2.2] [drafts.2.1] [drafts.1]
      runAt (identity.tenantId.val, command.runId.val)

end Durability

end Aegis
