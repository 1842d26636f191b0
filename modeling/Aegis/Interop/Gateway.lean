/-
  THE EXTERNAL INVOCATION GATEWAY, as programs in steps.

  `invoke`, `cancel` and `reconcile` are sequences of critical sections, clock readings and calls of
  ports; between two of them other calls of the gateway may run.  What a port answers is a function of
  how often anything has been asked before (`State.tick`), so "for all ports" is every behaviour of the
  peer, of the policy and of the clock -- and of the trust registry, which other operations change.

  The facts a call appends are definitions of their own (`requestedCall`, `claimedCall`, ...), for what
  the calls may do to each other is decided by them.
-/
import Mathlib
import Aegis.Lib.Steps
import Aegis.Interop.Trust
import Aegis.Interop.Ledger

namespace Aegis

namespace Interop

open Steps (atom)

/-! ## Ports -/

/-- What a peer returns. -/
abbrev PeerResult : Type := StatusContract × List ArtifactContract

structure Ports where
  limits : Limits
  now : Nat → Datetime
  cooled : Nat → Nat → Bool
  registry : Nat → Registry
  authorize : PrincipalContract → TrustEntry → CapabilityContract → Digest → Nat →
    Except Failure PolicyContract
  invoke : TrustEntry → TaskContract → MessageContract → ℚ → Nat → Except Failure PeerResult
  reconcile : TrustEntry → TaskContract → ℚ → Nat → Except Failure PeerResult
  cancel : TrustEntry → TaskContract → ℚ → Nat → Except Failure StatusContract

/-- A step of the gateway, by what it does. -/
inductive GatewayStep where
  | allow (peerId : String)
  | clock
  | projection (operationId : String)
  | requireActive (use : UseCall)
  | getPeer (peerId : String)
  | authorize (peer : TrustEntry) (capability : CapabilityContract)
  | reserve (reservationId : String)
  | append (c : AppendCall)
  | cancelled
  | transportInvoke (peer : TrustEntry) (task : TaskContract)
  | transportReconcile (peer : TrustEntry) (task : TaskContract)
  | transportCancel (peer : TrustEntry) (task : TaskContract)
  | record (peerId : String) (success : Bool)

abbrev Program (α : Type) : Type := Steps GatewayStep Failure State α

/-- Ask a port: its answer may depend on how often anything has been asked. -/
def ask {α : Type} (answer : Nat → Except Failure α) : GatewayAction α := do
  let s ← Exec.read
  Exec.modify fun s => { s with tick := s.tick + 1 }
  Exec.lift (answer s.tick)

/-! ## Results -/

structure InvocationResult where
  task : TaskContract
  status : StatusContract
  artifacts : List ArtifactContract
  replayed : Bool

/-- `InvocationResult(...)`. -/
def InvocationResult.checked (r : InvocationResult) : Except Failure InvocationResult :=
  if 64 < r.artifacts.length then .error ⟨.validationError, "InvocationResult.artifacts"⟩ else .ok r

/-- `_task_state`. -/
def taskState : InvocationState → TaskState
  | .requested => .submitted
  | .claimed => .working
  | .succeeded => .completed
  | .failed => .failed
  | .ambiguous => .reconciliationRequired
  | .cancelled => .cancelled
  | .reconciled => .completed
  | .quarantined => .quarantined

/-! ## Calls -/

structure InvokeCall where
  principal : PrincipalContract
  capability : CapabilityContract
  peerId : String
  message : MessageContract
  operationId : String
  commandRef : String
  idempotencyKey : String
  tenantRef : OpaqueReference
  classification : DataClassification
  costUnits : Int
  timeoutSeconds : ℚ
  cancelled : Nat → Bool

structure ReconcileCall where
  principal : PrincipalContract
  operationId : String
  commandRef : String
  classification : DataClassification
  timeoutSeconds : ℚ

structure CancelCall where
  principal : PrincipalContract
  operationId : String
  commandRef : String
  timeoutSeconds : ℚ

/-! ## What a call writes -/

def InvokeCall.fenceToken (a : InvokeCall) : String := "interop-fence-" ++ a.operationId ++ "-1"

def InvokeCall.reservationId (a : InvokeCall) : String := "interop-reservation-" ++ a.operationId

/-- The projection of a new operation, before its texts are checked. -/
def InvokeCall.newProjection (a : InvokeCall) (peer : TrustEntry) (requestDigest trustDigest : Digest)
    (policy : PolicyContract) (now : Datetime) : Except Failure InvocationProjection := do
  let operationId ← parseIdentifier "InvocationProjection.operation_id" a.operationId
  let peerId ← parseIdentifier "InvocationProjection.peer_id" a.peerId
  let fenceToken ← parseIdentifier "InvocationProjection.fence_token" a.fenceToken
  .ok { operationId, tenantRef := a.tenantRef, peerId, protocol := a.capability.protocol,
        capabilityId := a.capability.capabilityId, risk := a.capability.risk, state := .requested,
        version := 1, requestDigest, trustDigest, policyDigest := policy.policyDigest,
        trustRevision := peer.revision, fenceToken, cursorDigest := none, resultDigest := none,
        errorCode := none, ambiguous := false, cancellationRequested := false, updatedAt := now }

/-- The append of `INVOCATION_REQUESTED`. -/
def InvokeCall.requestedCall (a : InvokeCall) (task : TaskContract) (requested : InvocationProjection) :
    AppendCall where
  operationId := a.operationId
  factType := .invocationRequested
  commandRef := a.commandRef
  actorRef := a.principal.principalRef
  peerId := a.peerId
  payload := [("capability_id", .str a.capability.capabilityId.val), ("cost_units", .int a.costUnits),
    ("idempotency_key_digest", .str task.idempotencyKeyDigest.val),
    ("policy_digest", .str requested.policyDigest.val),
    ("request_digest", .str requested.requestDigest.val),
    ("reservation_ref", .str a.reservationId), ("trust_digest", .str requested.trustDigest.val)]
  recordedAt := requested.updatedAt
  projection := some requested

def InvocationProjection.claim (requested : InvocationProjection) (claimedAt : Datetime) :
    InvocationProjection :=
  { requested with state := .claimed, version := 2, updatedAt := claimedAt }

/-- The append of `INVOCATION_CLAIMED`. -/
def InvokeCall.claimedCall (a : InvokeCall) (claimed : InvocationProjection) : AppendCall where
  operationId := a.operationId
  factType := .invocationClaimed
  commandRef := a.commandRef ++ "-claim"
  actorRef := a.principal.principalRef
  peerId := a.peerId
  payload := [("fence_token", .str a.fenceToken), ("request_digest", .str claimed.requestDigest.val),
    ("trust_revision", .int claimed.trustRevision)]
  recordedAt := claimed.updatedAt
  projection := some claimed

def code (s : String) (h : isIdentifier s = true := by exact computed) : Identifier := ⟨s, h⟩

/-- The append of `INVOCATION_AMBIGUOUS`. -/
def InvokeCall.ambiguousCall (a : InvokeCall) (claimed : InvocationProjection) (now : Datetime) :
    AppendCall where
  operationId := a.operationId
  factType := .invocationAmbiguous
  commandRef := a.commandRef ++ "-ambiguous"
  actorRef := a.principal.principalRef
  peerId := a.peerId
  payload := [("error_code", .str "transport-ambiguous"), ("fence_token", .str a.fenceToken),
    ("request_digest", .str claimed.requestDigest.val)]
  recordedAt := now
  projection := some { claimed with
    state := .ambiguous, version := 3, ambiguous := true,
    errorCode := some (code "transport-ambiguous"), updatedAt := now }

/-- The append of `INVOCATION_FAILED`. -/
def InvokeCall.failedCall (a : InvokeCall) (claimed : InvocationProjection) (now : Datetime) :
    AppendCall where
  operationId := a.operationId
  factType := .invocationFailed
  commandRef := a.commandRef ++ "-failed"
  actorRef := a.principal.principalRef
  peerId := a.peerId
  payload := [("error_code", .str "peer-result-rejected"),
    ("request_digest", .str claimed.requestDigest.val)]
  recordedAt := now
  projection := some { claimed with
    state := .failed, version := 3, errorCode := some (code "peer-result-rejected"),
    updatedAt := now }

/-- What a result is recorded with. -/
def resultPayload (status : StatusContract) (artifacts : List ArtifactContract) (resultDigest : Digest) :
    List (String × Json) :=
  [("artifact_count", .int artifacts.length), ("result_digest", .str resultDigest.val),
    ("status_digest", .str status.statusDigest.val)]

/-- The append of `INVOCATION_SUCCEEDED`. -/
def InvokeCall.succeededCall (a : InvokeCall) (claimed : InvocationProjection) (status : StatusContract)
    (artifacts : List ArtifactContract) (resultDigest : Digest) (now : Datetime) : AppendCall where
  operationId := a.operationId
  factType := .invocationSucceeded
  commandRef := a.commandRef ++ "-succeeded"
  actorRef := a.principal.principalRef
  peerId := a.peerId
  payload := resultPayload status artifacts resultDigest
  recordedAt := now
  projection := some { claimed with
    state := .succeeded, version := 3, resultDigest := some resultDigest, updatedAt := now }

/-- The append of `TASK_CANCEL_REQUESTED`. -/
def CancelCall.requestedCall (a : CancelCall) (current : InvocationProjection) (now : Datetime) :
    AppendCall where
  operationId := a.operationId
  factType := .taskCancelRequested
  commandRef := a.commandRef
  actorRef := a.principal.principalRef
  peerId := current.peerId.val
  payload := [("fence_token", .str current.fenceToken.val),
    ("request_digest", .str current.requestDigest.val)]
  recordedAt := now
  projection := some { current with
    version := current.version + 1, cancellationRequested := true, updatedAt := now }

/-- The append of `TASK_CANCELLED`. -/
def CancelCall.confirmedCall (a : CancelCall) (requested : InvocationProjection)
    (status : StatusContract) (now : Datetime) : AppendCall where
  operationId := a.operationId
  factType := .taskCancelled
  commandRef := a.commandRef ++ "-confirmed"
  actorRef := a.principal.principalRef
  peerId := requested.peerId.val
  payload := [("status_digest", .str status.statusDigest.val)]
  recordedAt := now
  projection := some { requested with
    state := .cancelled, version := requested.version + 1, updatedAt := now }

/-- The append of `INVOCATION_RECONCILED`. -/
def ReconcileCall.reconciledCall (a : ReconcileCall) (current : InvocationProjection)
    (status : StatusContract) (artifacts : List ArtifactContract) (resultDigest : Digest)
    (now : Datetime) : AppendCall where
  operationId := a.operationId
  factType := .invocationReconciled
  commandRef := a.commandRef
  actorRef := a.principal.principalRef
  peerId := current.peerId.val
  payload := resultPayload status artifacts resultDigest
  recordedAt := now
  projection := some { current with
    state := .reconciled, version := current.version + 1, ambiguous := false,
    resultDigest := some resultDigest, updatedAt := now }

section Gateway

variable (sha : Sha256) (texts : Texts) (ports : Ports)

/-! ## Tasks -/

/-- The task of a new operation. -/
def InvokeCall.newTask (a : InvokeCall) (peer : TrustEntry) (requestDigest : Digest)
    (policy : PolicyContract) (now : Datetime) : Except Failure TaskContract := do
  let idempotencyKeyDigest ← digestValue sha texts (.str a.idempotencyKey)
  let taskId ← parseIdentifier "TaskContract.task_id" ("interop-task-" ++ a.operationId)
  let peerId ← parseIdentifier "TaskContract.peer_id" a.peerId
  let fenceToken ← parseIdentifier "TaskContract.fence_token" a.fenceToken
  TaskContract.checked
    { taskId, protocol := a.capability.protocol, peerId, capabilityId := a.capability.capabilityId,
      tenantRef := a.tenantRef, principalRef := a.principal.principalRef,
      purpose := a.principal.purpose, requestDigest, idempotencyKeyDigest,
      policyDigest := policy.policyDigest, trustRevision := peer.revision, fenceToken,
      state := .submitted, createdAt := now, updatedAt := now, expiresAt := a.principal.expiresAt,
      resultDigest := none, errorCode := none }

/-- `_task_from_projection`. -/
def taskFromProjection (p : InvocationProjection) (principal : PrincipalContract)
    (idempotencyKey : String) (now : Datetime) : Except Failure TaskContract := do
  let idempotencyKeyDigest ← digestValue sha texts (.str idempotencyKey)
  let taskId ← parseIdentifier "TaskContract.task_id" ("interop-task-" ++ p.operationId.val)
  TaskContract.checked
    { taskId, protocol := p.protocol, peerId := p.peerId, capabilityId := p.capabilityId,
      tenantRef := p.tenantRef, principalRef := principal.principalRef, purpose := principal.purpose,
      requestDigest := p.requestDigest, idempotencyKeyDigest, policyDigest := p.policyDigest,
      trustRevision := p.trustRevision, fenceToken := p.fenceToken, state := taskState p.state,
      createdAt := now, updatedAt := now, expiresAt := principal.expiresAt,
      resultDigest := p.resultDigest, errorCode := p.errorCode }

/-! ## Validation -/

/-- The loop over the artifacts: their provenance, and the length of their canonical texts. -/
def artifactBytes (peer : TrustEntry) (capability : CapabilityContract) (task : TaskContract) :
    List ArtifactContract → Except Failure Nat
  | [] => .ok 0
  | a :: artifacts =>
    if a.taskId ≠ task.taskId ∨ a.producerPeerId ≠ peer.peerId then
      .error ⟨.payloadRejected, "peer artifact provenance is invalid"⟩
    else if some a.cardDigest ≠ peer.cardDigest ∧ peer.protocol = .a2a then
      .error ⟨.payloadRejected, "peer artifact card pin is invalid"⟩
    else do
      let capabilityDigest ← digestValue sha texts capability.modelDump
      if a.capabilityDigest ≠ capabilityDigest then
        .error ⟨.payloadRejected, "peer artifact capability pin is invalid"⟩
      else do
        let text ← canonicalDocument texts a.modelDump
        let rest ← artifactBytes peer capability task artifacts
        .ok (text.length + rest)

/-- `_validate_result`. -/
def validateResult (peer : TrustEntry) (capability : CapabilityContract) (task : TaskContract)
    (result : PeerResult) : Except Failure Unit :=
  if result.1.state ≠ .completed then
    .error ⟨.payloadRejected, "peer did not return a completed task"⟩
  else if 64 < result.2.length then .error ⟨.payloadRejected, "peer returned too many artifacts"⟩
  else do
    let total ← artifactBytes sha texts peer capability task result.2
    if peer.maximumResponseBytes < total then
      .error ⟨.payloadRejected, "peer artifacts exceed the response bound"⟩
    else .ok ()

/-- The body of the `try`: what the peer returned, if it is valid. -/
def validated (peer : TrustEntry) (capability : CapabilityContract) (task : TaskContract)
    (answer : Except Failure PeerResult) : Except Failure PeerResult := do
  let result ← answer
  validateResult sha texts peer capability task result
  .ok result

/-- The document whose digest is the result's. -/
def resultDocument (result : PeerResult) : Json :=
  .obj [("artifacts", .arr (result.2.map ArtifactContract.modelDump)), ("status", result.1.modelDump)]

/-! ## Steps -/

/-- `self._now()`. -/
def clock : Program Datetime := atom .clock (ask fun tick => .ok (ports.now tick))

/-- `self._ledger.projection(...)`. -/
def readProjection (operationId : String) : Program (Option InvocationProjection) :=
  atom (.projection operationId) do
    let s ← Exec.read
    pure (s.projections operationId)

/-- `self._ledger.append(...)`. -/
def appendFact (c : AppendCall) : Program Unit :=
  atom (.append c) do
    let _ ← append sha texts c
    pure ()

/-- `self._registry.require_active(...)`. -/
def requireActive (use : UseCall) : Program TrustEntry :=
  atom (.requireActive use) (ask fun tick => (ports.registry tick).requireActive use)

/-- `self._circuit.record(...)`. -/
def record (peerId : String) (success : Bool) : Program Unit :=
  atom (.record peerId success) (recordCircuit ports.limits peerId success)

/-! ## Cancelling -/

/-- The states that `cancel` refuses. -/
def terminalStates : List InvocationState :=
  [.succeeded, .failed, .cancelled, .reconciled, .quarantined]

/-- `cancel`, from the first append on. -/
def cancelCurrent (a : CancelCall) (current : InvocationProjection) (peer : TrustEntry)
    (now : Datetime) : Program InvocationResult := do
  let requested := { current with
    version := current.version + 1, cancellationRequested := true, updatedAt := now }
  appendFact sha texts (a.requestedCall current now)
  let task ← Steps.done (taskFromProjection sha texts requested a.principal a.operationId now)
  let status ← atom (.transportCancel peer task) (ask (ports.cancel peer task a.timeoutSeconds))
  Steps.require (status.state = .cancelled)
    ⟨.reconciliationRequired, "peer cancellation is not confirmed"⟩
  let cancelledAt ← clock ports
  appendFact sha texts (a.confirmedCall requested status cancelledAt)
  pure { task := { task with state := .cancelled, updatedAt := cancelledAt }, status, artifacts := [],
         replayed := false }

/-- `cancel`. -/
def cancel (a : CancelCall) : Program InvocationResult := do
  match ← readProjection a.operationId with
  | none => Steps.raise ⟨.policyDenied, "invocation is unavailable"⟩
  | some current => do
    Steps.require (current.tenantRef = a.principal.tenantRef)
      ⟨.policyDenied, "invocation tenant binding is invalid"⟩
    Steps.require (current.state ∉ terminalStates)
      ⟨.policyDenied, "terminal invocation cannot be cancelled"⟩
    let now ← clock ports
    match ← atom (.getPeer current.peerId.val)
        (ask fun tick => .ok ((ports.registry tick).current current.peerId.val)) with
    | none => Steps.raise ⟨.policyDenied, "peer is unavailable"⟩
    | some peer => cancelCurrent sha texts ports a current peer now

/-! ## Reconciling -/

/-- `reconcile`. -/
def reconcile (a : ReconcileCall) : Program InvocationResult := do
  match ← readProjection a.operationId with
  | none => Steps.raise ⟨.policyDenied, "only ambiguous invocations can be reconciled"⟩
  | some current => do
    Steps.require (current.state = .ambiguous)
      ⟨.policyDenied, "only ambiguous invocations can be reconciled"⟩
    Steps.require (current.tenantRef = a.principal.tenantRef)
      ⟨.policyDenied, "invocation tenant binding is invalid"⟩
    let now ← clock ports
    let peer ← requireActive ports
      ⟨current.peerId.val, current.protocol, current.capabilityId, current.risk, a.classification, now⟩
    let trustDigest ← Steps.done (digestValue sha texts peer.modelDump)
    Steps.require (trustDigest = current.trustDigest)
      ⟨.policyDenied, "peer trust changed before reconciliation"⟩
    let task ← Steps.done (taskFromProjection sha texts current a.principal a.operationId now)
    let (status, artifacts) ← atom (.transportReconcile peer task)
      (ask (ports.reconcile peer task a.timeoutSeconds))
    Steps.require (status.state = .completed ∨ status.state = .failed)
      ⟨.reconciliationRequired, "peer reconciliation remains inconclusive"⟩
    let resultDigest ← Steps.done (digestValue sha texts (resultDocument (status, artifacts)))
    appendFact sha texts (a.reconciledCall current status artifacts resultDigest now)
    Steps.done (InvocationResult.checked
      { task := { task with state := status.state, updatedAt := now, resultDigest := some resultDigest },
        status, artifacts, replayed := false })

/-! ## Invoking -/

/-- The answer to an invocation that is already recorded. -/
def replay (a : InvokeCall) (existing : InvocationProjection) (requestDigest : Digest) (now : Datetime) :
    Except Failure InvocationResult :=
  if existing.tenantRef ≠ a.principal.tenantRef then
    .error ⟨.policyDenied, "invocation tenant binding is invalid"⟩
  else if existing.requestDigest ≠ requestDigest then
    .error ⟨.idempotencyConflict, "operation ID has a different request"⟩
  else if existing.state = .ambiguous then
    .error ⟨.reconciliationRequired, "ambiguous invocation requires reconciliation"⟩
  else do
    let statusDigest ← digestValue sha texts existing.modelDump
    if ¬(1 ≤ existing.version ∧ existing.version ≤ 10000) then
      .error ⟨.validationError, "StatusContract.sequence"⟩
    else do
      let task ← taskFromProjection sha texts existing a.principal a.idempotencyKey now
      InvocationResult.checked
        { task
          status := { state := taskState existing.state
                      progressPercent := if existing.state = .succeeded then 100 else 0
                      sequence := existing.version, retryAfterSeconds := none, statusDigest
                      occurredAt := existing.updatedAt }
          artifacts := [], replayed := true }

/-- The errors after which nobody knows what the peer did. -/
def ambiguousKinds : List FailureKind := [.ambiguousTransportError, .timeoutError, .connectionError]

/-- `invoke`, once the peer has answered. -/
def conclude (a : InvokeCall) (task : TaskContract) (claimed : InvocationProjection)
    (answer : Except Failure PeerResult) : Program InvocationResult :=
  match answer with
  | .error e =>
    if e.kind ∈ ambiguousKinds then do
      record ports a.peerId false
      let ambiguousAt ← clock ports
      appendFact sha texts (a.ambiguousCall claimed ambiguousAt)
      Steps.raise ⟨.reconciliationRequired, "protocol outcome is ambiguous; observe before retry"⟩
    else do
      record ports a.peerId false
      let failedAt ← clock ports
      appendFact sha texts (a.failedCall claimed failedAt)
      Steps.raise e
  | .ok (status, artifacts) => do
    record ports a.peerId true
    let resultDigest ← Steps.done (digestValue sha texts (resultDocument (status, artifacts)))
    let completedAt ← clock ports
    appendFact sha texts (a.succeededCall claimed status artifacts resultDigest completedAt)
    Steps.done (InvocationResult.checked
      { task := { task with state := .completed, updatedAt := completedAt,
                            resultDigest := some resultDigest },
        status, artifacts, replayed := false })

/-- `invoke`, once the request is recorded. -/
def claimAndCall (a : InvokeCall) (peer : TrustEntry) (task : TaskContract)
    (requested : InvocationProjection) : Program InvocationResult := do
  let cancelled ← atom .cancelled (ask fun tick => .ok (a.cancelled tick))
  if cancelled = true then
    cancel sha texts ports ⟨a.principal, a.operationId, a.commandRef ++ "-cancel", a.timeoutSeconds⟩
  else do
    let claimedAt ← clock ports
    let claimed := requested.claim claimedAt
    appendFact sha texts (a.claimedCall claimed)
    let answer ← atom (.transportInvoke peer task)
      (Exec.reify (ask (ports.invoke peer task a.message a.timeoutSeconds)))
    conclude sha texts ports a task claimed (validated sha texts peer a.capability task answer)

/-- `invoke` of an operation nobody has recorded. -/
def invokeNew (a : InvokeCall) (requestDigest : Digest) (now : Datetime) : Program InvocationResult := do
  let peer ← requireActive ports ⟨a.peerId, a.capability.protocol, a.capability.capabilityId,
    a.capability.risk, a.classification, now⟩
  let policy ← atom (.authorize peer a.capability)
    (ask (ports.authorize a.principal peer a.capability requestDigest))
  Steps.require (policy.decision = .allow)
    ⟨.policyDenied, "application protocol policy denied the invocation"⟩
  atom (.reserve a.reservationId) (reserve ports.limits a.tenantRef.val a.reservationId a.costUnits)
  let trustDigest ← Steps.done (digestValue sha texts peer.modelDump)
  let task ← Steps.done (a.newTask sha texts peer requestDigest policy now)
  let requested ← Steps.done (a.newProjection peer requestDigest trustDigest policy now)
  appendFact sha texts (a.requestedCall task requested)
  claimAndCall sha texts ports a peer task requested

/-- `invoke`. -/
def invoke (a : InvokeCall) : Program InvocationResult := do
  Steps.require (a.principal.tenantRef = a.tenantRef)
    ⟨.policyDenied, "principal tenant reference does not match invocation"⟩
  Steps.require (0 < a.timeoutSeconds ∧ a.timeoutSeconds ≤ 120)
    ⟨.payloadRejected, "protocol timeout is outside the bound"⟩
  let allowed ← atom (.allow a.peerId) (allow ports.limits ports.cooled a.peerId)
  Steps.require (allowed = true) ⟨.repositoryUnavailable, "peer circuit is open"⟩
  let now ← clock ports
  let requestDigest ← Steps.done (digestValue sha texts a.message.modelDump)
  match ← readProjection a.operationId with
  | some existing => Steps.done (replay sha texts a existing requestDigest now)
  | none => invokeNew sha texts ports a requestDigest now

/-! ## Calls -/

inductive GatewayCall where
  | invoke (a : InvokeCall)
  | reconcile (a : ReconcileCall)
  | cancel (a : CancelCall)

def GatewayCall.program : GatewayCall → Program InvocationResult
  | .invoke a => Interop.invoke sha texts ports a
  | .reconcile a => Interop.reconcile sha texts ports a
  | .cancel a => Interop.cancel sha texts ports a

end Gateway

/-! ## Worked values -/

def sampleDigest : Digest := ⟨String.ofList (List.replicate 64 'a'), by decide⟩

def samplePrincipal : PrincipalContract where
  principalRef := code "agent"
  tenantRef := ⟨"t", by decide⟩
  purpose := code "triage"
  expiresAt := ⟨3600000000, 0⟩

def sampleCapability : CapabilityContract where
  capabilityId := code "lookup"
  protocol := .mcp
  operation := .read
  resourceKind := code "incident"
  risk := .low
  inputSchemaDigest := sampleDigest
  outputSchemaDigest := sampleDigest
  maximumInputBytes := 1024
  maximumOutputBytes := 1024

/-- An active peer. -/
def samplePeer : TrustEntry where
  peerId := code "peer"
  protocol := .mcp
  ownerRef := code "owner"
  environment := .test
  trustTier := .partner
  status := .active
  revision := 2
  expiresAt := ⟨3600000000, 0⟩
  reviewAfter := ⟨3600000000, 0⟩
  cardDigest := none
  schemaDigest := sampleDigest
  certificateDigest := none
  keyDigest := none
  allowedClassifications := [.internal]
  allowedRisks := [.low]
  allowedCapabilities := [code "lookup"]
  allowedTransports := [.stdio]
  egressOrigins := []
  maximumRequestBytes := 1024
  maximumResponseBytes := 1024
  maximumRequestsPerMinute := 10
  maximumCostUnitsPerHour := 10
  changeDigest := sampleDigest
  reviewedBy := ["reviewer"]
  reviewedAt := some ⟨0, 0⟩

def sampleMessage : MessageContract where
  messageId := code "message"
  role := .user
  parts := []
  citations := []
  createdAt := ⟨0, 0⟩

def sampleStatus (state : TaskState) : StatusContract where
  state
  progressPercent := 100
  sequence := 1
  retryAfterSeconds := none
  statusDigest := sampleDigest
  occurredAt := ⟨0, 0⟩

/-- Every text is normalized. -/
def sampleTexts : Texts := ⟨fun _ => true⟩

/-- A peer that is lost in the middle of a call, and says later that the task failed. -/
def samplePorts : Ports where
  limits := ⟨5, 10, 3⟩
  now := fun _ => ⟨0, 0⟩
  cooled := fun _ _ => false
  registry := fun _ => ⟨fun _ => [samplePeer]⟩
  authorize := fun _ _ _ _ _ => .ok ⟨.allow, sampleDigest⟩
  invoke := fun _ _ _ _ _ => .error ⟨.ambiguousTransportError, "reset"⟩
  reconcile := fun _ _ _ _ => .ok (sampleStatus .failed, [])
  cancel := fun _ _ _ _ => .ok (sampleStatus .cancelled)

def sampleInvoke : InvokeCall where
  principal := samplePrincipal
  capability := sampleCapability
  peerId := "peer"
  message := sampleMessage
  operationId := "operation"
  commandRef := "command"
  idempotencyKey := "key"
  tenantRef := ⟨"t", by decide⟩
  classification := .internal
  costUnits := 1
  timeoutSeconds := 30
  cancelled := fun _ => false

def sampleReconcile : ReconcileCall := ⟨samplePrincipal, "operation", "reconciliation", .internal, 30⟩

end Interop

end Aegis
