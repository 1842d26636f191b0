/-
  DELIVERY, VERIFICATION AND REBUILD, and the store as a state machine.

  A worker CLAIMS outbox messages for a time, then completes or fails each claim; a claim is known by
  its token and its attempt number.  The verifiers recompute the chains from the stored events: one
  walks the whole tenant, the other the events of one run with their neighbours.  The rebuilds
  replay the projection from the events.

  `Op` lists the operations that write, `step` runs one, and a run of the store is a list of them.
-/
import Mathlib
import Aegis.Lib.Machine
import Aegis.Durability.Store

namespace Aegis

namespace Durability

/-! ## Outbox claims -/

/-- A record a worker may claim at `now`: due, and pending or with a claim that has run out. -/
def claimable (tenantId : String) (now : Datetime) (direction : Direction) (record : DeliveryRecord) :
    Bool :=
  direction == .outbox && record.tenantId.val == tenantId && decide (record.availableAt ≤ now)
    && (record.status == .pending
      || (record.status == .claimed
        && (match record.claimUntil with | none => false | some t => decide (t ≤ now))))

/-- The sort key of candidates: `(available_at, tenant_id, message_id)`. -/
def claimOrder (a b : DeliveryRecord) : Prop :=
  a.availableAt < b.availableAt ∨ (a.availableAt.instant = b.availableAt.instant ∧
    (a.tenantId.val < b.tenantId.val ∨
      (a.tenantId.val = b.tenantId.val ∧ a.messageId.val ≤ b.messageId.val)))

instance : DecidableRel claimOrder := fun _ _ =>
  inferInstanceAs (Decidable (_ ∨ (_ ∧ (_ ∨ (_ ∧ _)))))

/-- The records a claim looks at, oldest first, at most `limit`. -/
def candidates (deliveries : Deliveries) (tenantId : String) (now : Datetime) (limit : Nat) :
    List DeliveryRecord :=
  (((deliveries.entries.filter fun e => claimable tenantId now e.1.2.1 e.2).map
    fun e => e.2).insertionSort claimOrder).take limit

/-- `stable_id("claim", worker_ref, tenant_id, message_id, str(attempt), length=32)`. -/
def claimTokenOf (sha : Sha256) (workerRef : String) (record : DeliveryRecord) (attempt : Nat) :
    Identifier :=
  stableIdentifier sha "claim"
    [workerRef, record.tenantId.val, record.messageId.val, attempt.repr] 32

/-- The claim a candidate gives, unless its attempts are used up. -/
def issueClaim (sha : Sha256) (workerRef : String) (record : DeliveryRecord) :
    Option DeliveryClaim :=
  if h : record.attempts + 1 > maxDeliveryAttempts then none
  else some { tenantId := record.tenantId, messageId := record.messageId,
              claimToken := claimTokenOf sha workerRef record (record.attempts + 1),
              destination := record.destination, messageType := record.messageType,
              attempt := record.attempts + 1, payload := record.payload,
              attempt_ok := ⟨Nat.succ_pos _, Nat.le_of_not_gt h⟩ }

/-- The record after a claim: dead-lettered when its attempts are used up. -/
def claimedRecord (sha : Sha256) (workerRef : String) (claimUntil : Datetime)
    (record : DeliveryRecord) : DeliveryRecord :=
  match issueClaim sha workerRef record with
  | none => { record with status := .deadLetter }
  | some claim => { record with attempts := claim.attempt, claimToken := some claim.claimToken.val,
                                claimUntil := some claimUntil, status := .claimed }

/-- The key a record is stored under. -/
def outboxKey (record : DeliveryRecord) : DeliveryKey :=
  (record.tenantId.val, .outbox, record.messageId.val)

/-- The loop over the candidates. -/
def claimLoop (sha : Sha256) (workerRef : String) (claimUntil : Datetime) :
    List DeliveryRecord → Deliveries → List DeliveryClaim × Deliveries
  | [], deliveries => ([], deliveries)
  | record :: records, deliveries =>
    let deliveries' := deliveries.insert (outboxKey record)
      (claimedRecord sha workerRef claimUntil record)
    let rest := claimLoop sha workerRef claimUntil records deliveries'
    ((issueClaim sha workerRef record).toList ++ rest.1, rest.2)

/-- `claim_outbox`. -/
def claimOutbox (sha : Sha256) (tenantId workerRef : String) (now claimUntil : Datetime)
    (limit : Int) : Action (List DeliveryClaim) := do
  Exec.require (1 ≤ limit ∧ limit ≤ 100 ∧ now < claimUntil)
    ⟨.valueError, "outbox claim bounds are invalid"⟩
  let s ← Exec.read
  let result := claimLoop sha workerRef claimUntil
    (candidates s.deliveries tenantId now limit.toNat) s.deliveries
  Exec.modify fun s => { s with deliveries := result.2 }
  pure result.1

/-- The claim is the one the record carries. -/
def ownsClaim (record : DeliveryRecord) (claim : DeliveryClaim) : Prop :=
  record.status = .claimed ∧ record.claimToken = some claim.claimToken.val
    ∧ record.attempts = claim.attempt

instance (record : DeliveryRecord) (claim : DeliveryClaim) : Decidable (ownsClaim record claim) :=
  inferInstanceAs (Decidable (_ ∧ _ ∧ _))

def claimKey (claim : DeliveryClaim) : DeliveryKey :=
  (claim.tenantId.val, .outbox, claim.messageId.val)

/-- The record after a claim on it is settled. -/
def settledRecord (record : DeliveryRecord) (status : DeliveryStatus) (errorCode : Option String)
    (retryAt : Option Datetime) : DeliveryRecord :=
  { record with availableAt := retryAt.getD record.availableAt, claimToken := none,
                claimUntil := none, lastErrorCode := errorCode, status }

/-- `_update_claim`. -/
def updateClaim (claim : DeliveryClaim) (status : DeliveryStatus) (errorCode : Option String)
    (retryAt : Option Datetime) : Action Unit := do
  let s ← Exec.read
  match s.deliveries.lookup (claimKey claim) with
  | none => Exec.raise ⟨.messageClaimConflict, "outbox claim is stale or not owned"⟩
  | some record => do
    Exec.require (ownsClaim record claim)
      ⟨.messageClaimConflict, "outbox claim is stale or not owned"⟩
    Exec.modify fun s =>
      { s with deliveries := s.deliveries.insert (claimKey claim)
                (settledRecord record status errorCode retryAt) }

/-- `complete_outbox`. -/
def completeOutbox (claim : DeliveryClaim) : Action Unit :=
  updateClaim claim .delivered none none

/-- `fail_outbox`. -/
def failOutbox (claim : DeliveryClaim) (errorCode : String) (retryAt : Datetime)
    (permanent : Bool) : Action Unit :=
  updateClaim claim
    (if permanent = true ∨ maxDeliveryAttempts ≤ claim.attempt then .deadLetter else .pending)
    (some errorCode) (some retryAt)

/-! ## Verification -/

/-- The loop of `verify_integrity`: the heads of the aggregates, the head of the tenant and the
    event ids seen so far. -/
def verifyEvents (sha : Sha256) : (String × String → Option AggregateHead) → TenantHead →
    Finset String → List ApplicationEvent → Except Error Bool
  | _, _, _, [] => .ok true
  | heads, tenantHead, seen, event :: events => do
    let aggregate := (heads event.aggregate).getD {}
    let draft ← event.draft
    let expected := sha.hexdigest (eventMaterial event.tenantId.val event.aggregateType.val
      event.aggregateId.val event.aggregateSequence event.tenantCursor draft aggregate.recordHash
      tenantHead.recordHash)
    if event.schemaVersion ≠ 1 ∨ event.eventId.val ∈ seen
        ∨ event.aggregateSequence ≠ aggregate.sequence + 1
        ∨ event.tenantCursor ≠ tenantHead.cursor + 1
        ∨ event.aggregatePreviousHash ≠ aggregate.recordHash
        ∨ event.tenantPreviousHash ≠ tenantHead.recordHash
        ∨ event.recordHash ≠ expected then .ok false
    else
      let head : AggregateHead :=
        { sequence := event.aggregateSequence, recordHash := event.recordHash }
      verifyEvents sha (Function.update heads event.aggregate (some head))
        { cursor := event.tenantCursor, recordHash := event.recordHash }
        (insert event.eventId.val seen) events

/-- `verify_integrity` on the events of a tenant. -/
def verifyLedger (sha : Sha256) (events : List ApplicationEvent) : Except Error Bool :=
  verifyEvents sha (fun _ => none) {} ∅ events

/-- `verify_integrity`. -/
def verifyIntegrity (sha : Sha256) (s : Store) (tenantId : String) : Except Error Bool :=
  verifyLedger sha (s.events tenantId)

/-- The events of one run, in order. -/
def runEvents (events : List ApplicationEvent) (runId : String) : List ApplicationEvent :=
  events.filter fun e => e.aggregateType.val == "investigation" && e.aggregateId.val == runId

/-- The record hash before position `cursor` of a tenant's events. -/
def previousTenantHash (tenantEvents : List ApplicationEvent) (cursor : Nat) : Digest :=
  if cursor = 1 then zeroHash
  else ((tenantEvents[cursor - 2]?).map (·.recordHash)).getD zeroHash

/-- The successor of an event carries its hash; the head of the tenant does when there is none. -/
def linkedToNext (tenantEvents : List ApplicationEvent) (tenantHead : TenantHead)
    (event : ApplicationEvent) : Bool :=
  match tenantEvents[event.tenantCursor]? with
  | some successor => successor.tenantPreviousHash == event.recordHash
  | none => tenantHead.recordHash == event.recordHash

/-- The loop of `verify_run_integrity`; it returns the position it reached, or `none` when a check
    fails. -/
def verifyRunEvents (sha : Sha256) (tenantEvents : List ApplicationEvent) (tenantHead : TenantHead) :
    Nat → Digest → List ApplicationEvent → Except Error (Option (Nat × Digest))
  | sequence, hash, [] => .ok (some (sequence, hash))
  | sequence, hash, event :: events =>
    if event.tenantCursor < 1 ∨ tenantEvents.length < event.tenantCursor then .ok none
    else do
      let previous := previousTenantHash tenantEvents event.tenantCursor
      let draft ← event.draft
      let expected := sha.hexdigest (eventMaterial event.tenantId.val event.aggregateType.val
        event.aggregateId.val event.aggregateSequence event.tenantCursor draft hash previous)
      if event.schemaVersion ≠ 1 ∨ event.aggregateSequence ≠ sequence + 1
          ∨ event.aggregatePreviousHash ≠ hash ∨ event.tenantPreviousHash ≠ previous
          ∨ event.recordHash ≠ expected then .ok none
      else if linkedToNext tenantEvents tenantHead event = false then .ok none
      else
        verifyRunEvents sha tenantEvents tenantHead event.aggregateSequence event.recordHash events

/-- `verify_run_integrity`. -/
def verifyRunIntegrity (sha : Sha256) (s : Store) (tenantId runId : String) (maximumEvents : Int) :
    Except Error Bool :=
  if maximumEvents < 1 ∨ 10000 < maximumEvents then
    .error ⟨.valueError, "run integrity event bound is invalid"⟩
  else
    let tenantEvents := s.events tenantId
    let selected := runEvents tenantEvents runId
    if selected = [] ∨ maximumEvents < selected.length then .ok false
    else do
      match ← verifyRunEvents sha tenantEvents (s.tenantHead tenantId) 0 zeroHash selected with
      | none => .ok false
      | some (sequence, hash) =>
        match s.aggregateHeads (tenantId, "investigation", runId) with
        | none => .ok false
        | some head => .ok (head.sequence == sequence && head.recordHash == hash)

/-! ## Rebuilding projections -/

/-- One iteration of `_apply_projection_locked`. -/
def applyEvent (event : ApplicationEvent) : Action Unit :=
  if event.aggregateType.val ≠ "investigation" then pure ()
  else do
    let s ← Exec.read
    let key := (event.tenantId.val, event.aggregateId.val)
    let run ← Exec.lift (reduceRun (s.runs key) event)
    Exec.modify fun s => { s with runs := Function.update s.runs key (some run) }

/-- `_apply_projection_locked`. -/
def applyProjectionLocked (events : List ApplicationEvent) : Action Unit :=
  Exec.forEach events applyEvent

/-- `rebuild_run_projections`. -/
def rebuildRunProjections (tenantId : String) : Action ProjectionCheckpoint := do
  Exec.modify fun s => { s with runs := fun key => if key.1 = tenantId then none else s.runs key }
  let s ← Exec.read
  applyProjectionLocked (s.events tenantId)
  let head := s.tenantHead tenantId
  let key := (tenantId, "investigation-runs")
  let tenant ← Exec.lift (Identifier.parse "ProjectionCheckpoint.tenant_id" tenantId)
  let checkpoint : ProjectionCheckpoint :=
    { tenantId := tenant, projectionName := ⟨"investigation-runs", by decide⟩,
      lastCursor := head.cursor, lastEventHash := head.recordHash,
      version := match s.projectionCheckpoints key with
        | none => 1
        | some previous => previous.version + 1 }
  Exec.modify fun s =>
    { s with projectionCheckpoints := Function.update s.projectionCheckpoints key (some checkpoint) }
  pure checkpoint

/-- The fold of `reduce_run` over a list of events. -/
def foldRun : Option RunView → List ApplicationEvent → Except Error (Option RunView)
  | projection, [] => .ok projection
  | projection, event :: events => do
    let run ← reduceRun projection event
    foldRun (some run) events

/-- `rebuild_run`. -/
def rebuildRun (sha : Sha256) (tenantId runId : String) : Action RunView := do
  let s ← Exec.read
  let verified ← Exec.lift (verifyIntegrity sha s tenantId)
  Exec.require (verified = true) ⟨.integrityFailure, "ledger integrity verification failed"⟩
  let events := runEvents (s.events tenantId) runId
  Exec.require (events ≠ []) ⟨.valueError, "run does not exist"⟩
  let projection ← Exec.lift (foldRun none events)
  match projection with
  | none => Exec.raise ⟨.integrityFailure, "run projection could not be rebuilt"⟩
  | some run => do
    Exec.modify fun s => { s with runs := Function.update s.runs (tenantId, runId) (some run) }
    pure run

/-! ## Legacy replay -/

/-- The drafts of a legacy import; `index` counts from 1. -/
def legacyDrafts (sha : Sha256) (tenantId aggregateId actorRef correlationRef : String)
    (upcast : LegacyEvent → Except Error (String × Fields)) :
    Nat → List LegacyEvent → Except Error (List EventDraft)
  | _, [] => .ok []
  | index, item :: items => do
    let (eventType, payload) ← upcast item
    let kind ← Identifier.parse "EventDraft.event_type" eventType
    let actor ← Identifier.parse "EventDraft.actor_ref" actorRef
    let correlation ← Identifier.parse "EventDraft.correlation_ref" correlationRef
    let draft ← EventDraft.make
      (stableIdentifier sha "legacy-event"
        [tenantId, aggregateId, index.repr, item.eventType.val] 32)
      kind item.occurredAt actor correlation none 1 payload
    let rest ← legacyDrafts sha tenantId aggregateId actorRef correlationRef upcast (index + 1) items
    .ok (draft :: rest)

/-- `replay_legacy`. -/
def replayLegacy (sha : Sha256) (tenantId aggregateId actorRef correlationRef : String)
    (legacy : List LegacyEvent) (upcast : LegacyEvent → Except Error (String × Fields)) :
    Action (List ApplicationEvent) := do
  let drafts ← Exec.lift (legacyDrafts sha tenantId aggregateId actorRef correlationRef upcast 1
    legacy)
  append sha tenantId "investigation" aggregateId 0 drafts [] []

/-! ## The store as a state machine -/

/-- The operations that write. -/
inductive Op where
  | append (tenantId aggregateType aggregateId : String) (expectedVersion : Int)
      (drafts : List EventDraft) (outbox : List OutboxDraft) (inbox : List InboxDraft)
  | acceptRun (identity : IdentityContext) (request : InvestigationRequest) (waitForSignal : Bool)
      (now : Datetime)
  | acceptSignal (identity : IdentityContext) (command : SignalCommand)
      (availableAt occurredAt : Datetime)
  | recordTransition (tenantId runId eventType operationId actorRef requestRef : String)
      (failureCode : Option String) (attributes : Option Fields) (now : Datetime)
  | replayLegacy (tenantId aggregateId actorRef correlationRef : String)
      (legacy : List LegacyEvent) (upcast : LegacyEvent → Except Error (String × Fields))
  | claimOutbox (tenantId workerRef : String) (now claimUntil : Datetime) (limit : Int)
  | completeOutbox (claim : DeliveryClaim)
  | failOutbox (claim : DeliveryClaim) (errorCode : String) (retryAt : Datetime) (permanent : Bool)
  | rebuildRunProjections (tenantId : String)
  | rebuildRun (tenantId runId : String)

/-- What an operation returns. -/
inductive Result where
  | events (events : List ApplicationEvent)
  | run (run : RunView)
  | claims (claims : List DeliveryClaim)
  | checkpoint (checkpoint : ProjectionCheckpoint)
  | none

/-- The body of an operation. -/
def Op.body (sha : Sha256) : Op → Action Result
  | .append tenantId aggregateType aggregateId expectedVersion drafts outbox inbox => do
    return .events (← Durability.append sha tenantId aggregateType aggregateId expectedVersion drafts
      outbox inbox)
  | .acceptRun identity request waitForSignal now => do
    return .run (← Durability.acceptRun sha identity request waitForSignal now)
  | .acceptSignal identity command availableAt occurredAt => do
    return .run (← Durability.acceptSignal sha identity command availableAt occurredAt)
  | .recordTransition tenantId runId eventType operationId actorRef requestRef failureCode attributes
      now => do
    return .run (← Durability.recordTransition sha tenantId runId eventType operationId actorRef
      requestRef failureCode attributes now)
  | .replayLegacy tenantId aggregateId actorRef correlationRef legacy upcast => do
    return .events (← Durability.replayLegacy sha tenantId aggregateId actorRef correlationRef legacy
      upcast)
  | .claimOutbox tenantId workerRef now claimUntil limit => do
    return .claims (← Durability.claimOutbox sha tenantId workerRef now claimUntil limit)
  | .completeOutbox claim => do
    Durability.completeOutbox claim
    return .none
  | .failOutbox claim errorCode retryAt permanent => do
    Durability.failOutbox claim errorCode retryAt permanent
    return .none
  | .rebuildRunProjections tenantId => do
    return .checkpoint (← Durability.rebuildRunProjections tenantId)
  | .rebuildRun tenantId runId => do
    return .run (← Durability.rebuildRun sha tenantId runId)

/-- One operation: what it returns or raises, and the store it leaves. -/
def step (sha : Sha256) (s : Store) (op : Op) : Except Error Result × Store := op.body sha s

/-- The store after a sequence of operations on an empty one. -/
def run (sha : Sha256) (ops : List Op) : Store := Machine.final (step sha) Store.empty ops

/-- The history of a sequence of operations on an empty store. -/
def history (sha : Sha256) (ops : List Op) : List (Machine.Entry Store Op (Except Error Result)) :=
  Machine.trace (step sha) Store.empty ops

end Durability

end Aegis
