/-
  THE IN-MEMORY STORES OF REMEDIATION: the fact ledger, the control store, the action policies, the
  effect claims and the effect quota, in one state.

  The ledger keeps the facts of a plan in order, remembers every command id with a fingerprint, and
  folds each fact onto a projection (`reduceRemediation`), whose status moves only along `allowed`.

  What the services call outside the process is a `Ports` value: the clock, the authorization port
  and the action adapter, each answering the n-th question it is asked.  The state counts the
  questions and keeps the calls of the adapter, so that "the adapter was called" is a fact of the
  state.
-/
import Mathlib
import Aegis.Lib.Exec
import Aegis.Lib.Machine
import Aegis.Remediation.Records

namespace Aegis

namespace Remediation

/-! ## Ports -/

/-- The permissions the services ask for. -/
inductive PolicyAction where
  | remediationPropose | remediationRead | approvalRequest | approvalDecide | approvalRevoke
  | effectExecute
deriving DecidableEq, Repr

/-- What is outside the process.  Each port is asked with the number of the question. -/
structure Ports where
  clock : Nat → Datetime
  /-- `authorize(...)`: whether it is allowed, and the reason. -/
  authorize : Nat → IdentityContext → PolicyAction → RiskLevel → Bool × String
  dryRun : Nat → ActionIntent → Except Error ActionReceipt
  observe : Nat → ActionIntent → Except Error ActionObservation
  execute : Nat → ActionIntent → Except Error ActionReceipt
  compensate : Nat → ActionIntent → Except Error ActionReceipt

/-- A call of the action adapter. -/
inductive AdapterCall where
  | dryRun (intent : ActionIntent)
  | observe (intent : ActionIntent)
  | execute (intent : ActionIntent)
  | compensate (intent : ActionIntent)

/-! ## State -/

/-- `_InMemoryEffectClaim`. -/
structure EffectClaim where
  actionDigest : Digest
  planDigest : Digest
  approvalDigest : Digest
  policyDigest : Digest
  targetFingerprint : Digest
  fenceToken : Identifier
  attempt : Nat
  claimToken : Identifier
  claimUntil : Datetime
  receipt : Option ActionReceipt

/-- `EffectClaimRecord`. -/
structure EffectClaimRecord where
  claimToken : Identifier
  fenceToken : Identifier
  attempt : Nat
  replayed : Bool
  receipt : Option ActionReceipt

/-- `EffectQuotaDecision`. -/
structure EffectQuotaDecision where
  allowed : Bool
  reservationId : Identifier
  units : Nat
  reason : String

/-- The stores, keyed by tenant and plan, command, approval or operation. -/
structure State where
  facts : String × String → List RemediationFact
  commands : String × String → Option (String × Digest)
  projections : String × String → Option RemediationProjection
  plans : String × String → Option RemediationPlan
  approvals : String × String → Option ActionApprovalRequest
  decisions : String × String → List ApprovalDecision
  decisionCommands : String × String → Option Digest
  verifications : String × String → Option VerificationRecord
  policies : String → Option ActionPolicy
  claims : String × String → Option EffectClaim
  remaining : String → Int
  reservations : String × String → Option EffectQuotaDecision
  tick : Nat
  calls : List AdapterCall

/-- New stores: `InMemoryActionPolicyStore(policies)` and `InMemoryEffectQuota(limits)`, the others
    empty. -/
def State.start (policies : List ActionPolicy) (limits : String → Int) : State where
  facts := fun _ => []
  commands := fun _ => none
  projections := fun _ => none
  plans := fun _ => none
  approvals := fun _ => none
  decisions := fun _ => []
  decisionCommands := fun _ => none
  verifications := fun _ => none
  policies := fun t => policies.reverse.find? fun p => p.tenantId.val == t
  claims := fun _ => none
  remaining := limits
  reservations := fun _ => none
  tick := 0
  calls := []

abbrev Action (α : Type) : Type := Exec Error State α

/-- `self._clock.now()`. -/
def now (ports : Ports) : Action Datetime := do
  let s ← Exec.read
  Exec.modify fun s => { s with tick := s.tick + 1 }
  pure (ports.clock s.tick)

/-- `self._policy.authorize(...)`, and the denial when it is not allowed. -/
def authorize (ports : Ports) (identity : IdentityContext) (action : PolicyAction)
    (risk : RiskLevel) : Action Unit := do
  let s ← Exec.read
  Exec.modify fun s => { s with tick := s.tick + 1 }
  let decision := ports.authorize s.tick identity action risk
  Exec.require (decision.1 = true) ⟨.policyDenied, decision.2⟩

/-- A call of the adapter: it is noted, then it answers or raises. -/
def callAdapter {α : Type} (call : AdapterCall) (answer : Nat → Except Error α) : Action α := do
  let s ← Exec.read
  Exec.modify fun s => { s with tick := s.tick + 1, calls := s.calls ++ [call] }
  Exec.lift (answer s.tick)

/-! ## The ledger -/

def maxFacts : Nat := 500

/-- `status_by_fact`. -/
def RemediationFactType.status : RemediationFactType → RemediationStatus
  | .proposalRecorded => .proposed
  | .policyDecided => .proposed
  | .approvalRequested => .approvalPending
  | .approvalGranted => .approved
  | .approvalDenied => .denied
  | .approvalExpired => .expired
  | .approvalRevoked => .revoked
  | .preflightRequested => .preflight
  | .dryRunSucceeded => .preflight
  | .executionRequested => .executing
  | .executionStarted => .executing
  | .executionSucceeded => .succeeded
  | .executionFailed => .failed
  | .executionAmbiguous => .ambiguous
  | .reconciliationStarted => .reconciling
  | .reconciliationResolved => .succeeded
  | .rollbackRequested => .rollingBack
  | .rollbackSucceeded => .rolledBack
  | .rollbackFailed => .escalated
  | .cancellationRequested => .cancelled
  | .cancelled => .cancelled
  | .verificationRequested => .succeeded
  | .verified => .verified
  | .verificationFailed => .verificationFailed
  | .escalated => .escalated

def terminal : List RemediationStatus :=
  [.denied, .expired, .revoked, .rolledBack, .cancelled, .verified, .escalated]

/-- The statuses a plan may take next. -/
def allowed : RemediationStatus → List RemediationStatus
  | .proposed => [.proposed, .approvalPending]
  | .approvalPending => [.approvalPending, .approved, .denied, .expired, .revoked, .cancelled]
  | .approved => [.preflight, .revoked, .cancelled]
  | .preflight => [.preflight, .executing, .failed, .cancelled]
  | .executing => [.executing, .succeeded, .failed, .ambiguous, .cancelled]
  | .succeeded => [.succeeded, .verified, .verificationFailed, .rollingBack]
  | .failed => [.rollingBack, .escalated]
  | .ambiguous => [.reconciling, .escalated]
  | .reconciling => [.succeeded, .failed, .escalated]
  | .rollingBack => [.rolledBack, .escalated]
  | .verificationFailed => [.rollingBack, .escalated]
  | _ => []

/-- `_validate_transition`. -/
def validateTransition (previous current : RemediationStatus) : Except Error Unit :=
  if previous ∈ terminal then
    .error ⟨.integrityFailure, "terminal remediation state cannot advance"⟩
  else if current ∈ allowed previous then .ok ()
  else .error ⟨.integrityFailure,
    "illegal remediation transition " ++ previous.value ++ "->" ++ current.value⟩

/-- `str(value)`.  The text of an array or an object is not the one Python gives: no caller records
    one where its text is read. -/
def textOf (v : Json) : String := v.pyStr.getD (canonicalJson v)

/-- `fact.payload[key]`. -/
def payloadAt (payload : Fields) (key : String) (missing : Error) : Except Error Json :=
  match payload.lookup key with
  | none => .error missing
  | some v => .ok v

/-- Validation of a `Sha256Digest` field. -/
def parseDigest (place text : String) : Except Error Digest :=
  if h : isDigest text = true then .ok ⟨text, h⟩ else .error (validationError place)

/-- `payload.get(key)` when it is a text, else `old`. -/
def textField (payload : Fields) (key : String) (old : Option String) : Option String :=
  match payload.lookup key with
  | some (.str s) => some s
  | _ => old

/-- The projection a proposal starts. -/
def startProjection (fact : RemediationFact) : Except Error RemediationProjection := do
  let incomplete : Error := ⟨.integrityFailure, "proposal fact is incomplete"⟩
  let run ← payloadAt fact.payload "run_id" incomplete
  let plan ← payloadAt fact.payload "plan_digest" incomplete
  let fence ← payloadAt fact.payload "fence_token" incomplete
  let runId ← Identifier.parse "RemediationProjection.run_id" (textOf run)
  let planDigest ← parseDigest "RemediationProjection.plan_digest" (textOf plan)
  let fenceToken ← Identifier.parse "RemediationProjection.fence_token" (textOf fence)
  .ok { tenantId := fact.tenantId, planId := fact.planId, runId, status := .proposed, version := 1,
        planDigest, approvalId := none, approvalDigest := none, effectReceiptDigest := none,
        verificationDigest := none, fenceToken, lastFactDigest := fact.canonicalDigest,
        updatedAt := fact.recordedAt }

/-- The approval a fact binds: `approval_requested` names it, other facts leave it. -/
def boundApproval (current : RemediationProjection) (fact : RemediationFact) :
    Except Error (Option String × Option String) :=
  if fact.factType = .approvalRequested then do
    let id ← payloadAt fact.payload "approval_id" ⟨.keyError, "approval_id"⟩
    let digest ← payloadAt fact.payload "approval_digest" ⟨.keyError, "approval_digest"⟩
    .ok (some (textOf id), some (textOf digest))
  else .ok (current.approvalId, current.approvalDigest)

/-- `reduce_remediation`: one fact folded onto a projection. -/
def reduceRemediation (current : Option RemediationProjection) (fact : RemediationFact) :
    Except Error RemediationProjection :=
  match current with
  | none =>
    if fact.factType ≠ .proposalRecorded then
      .error ⟨.integrityFailure, "remediation replay must start with proposal"⟩
    else startProjection fact
  | some current =>
    if fact.sequence ≠ current.version + 1 then
      .error ⟨.integrityFailure, "remediation replay sequence is not contiguous"⟩
    else if fact.previousDigest ≠ current.lastFactDigest then
      .error ⟨.integrityFailure, "remediation fact chain is invalid"⟩
    else do
      validateTransition current.status fact.factType.status
      let approval ← boundApproval current fact
      .ok { current with
        status := fact.factType.status, version := fact.sequence,
        lastFactDigest := fact.canonicalDigest, updatedAt := fact.recordedAt,
        approvalId := approval.1, approvalDigest := approval.2,
        effectReceiptDigest :=
          if fact.factType = .executionSucceeded ∨ fact.factType = .reconciliationResolved
              ∨ fact.factType = .rollbackSucceeded then
            textField fact.payload "effect_receipt_digest" current.effectReceiptDigest
          else current.effectReceiptDigest,
        verificationDigest :=
          if fact.factType = .verified ∨ fact.factType = .verificationFailed then
            textField fact.payload "verification_digest" current.verificationDigest
          else current.verificationDigest }

/-- The fingerprint of a command: its fact type and its payload. -/
def commandFingerprint (sha : Sha256) (factType : RemediationFactType) (payload : Fields) : Digest :=
  canonicalDigest sha [("fact_type", .str factType.value), ("payload", payload.toJson)]

/-- The fact at position `sequence`, after `previous`. -/
def buildFact (sha : Sha256) (tenantId planId : String) (sequence : Nat) (previous : Digest)
    (factType : RemediationFactType) (commandId actorRef : String) (recordedAt : Datetime)
    (payload : Fields) : Except Error RemediationFact := do
  let factId := stableIdentifier sha "remediation-fact"
    [tenantId, planId, (sequence + 1).repr, commandId] 32
  let material : List (String × Json) :=
    [("actor_ref", .str actorRef), ("command_id", .str commandId), ("fact_id", .str factId.val),
     ("fact_type", .str factType.value), ("payload", payload.sorted.toJson),
     ("plan_id", .str planId), ("previous_digest", .str previous.val),
     ("recorded_at", .str recordedAt.isoformat), ("schema_version", .int 1),
     ("sequence", .int (sequence + 1)), ("tenant_id", .str tenantId)]
  let tenant ← Identifier.parse "RemediationFact.tenant_id" tenantId
  let plan ← Identifier.parse "RemediationFact.plan_id" planId
  let command ← Identifier.parse "RemediationFact.command_id" commandId
  let actor ← Identifier.parse "RemediationFact.actor_ref" actorRef
  if hp : payload.sorted.entries.length ≤ 32 then
    .ok { tenantId := tenant, planId := plan, sequence := sequence + 1, factId, factType,
          commandId := command, actorRef := actor, recordedAt, payload := payload.sorted,
          previousDigest := previous, canonicalDigest := canonicalDigest sha material,
          sequence_ok := Nat.succ_pos _, payload_ok := hp }
  else .error (validationError "RemediationFact.payload")

/-- The writes of an append. -/
def State.record (s : State) (key command : String × String) (entry : String × Digest)
    (fact : RemediationFact) (projection : RemediationProjection) : State :=
  { s with facts := Function.update s.facts key (s.facts key ++ [fact]),
           commands := Function.update s.commands command (some entry),
           projections := Function.update s.projections key (some projection) }

/-- `InMemoryRemediationLedger.append`. -/
def append (sha : Sha256) (tenantId planId : String) (expectedVersion : Int)
    (factType : RemediationFactType) (commandId actorRef : String) (recordedAt : Datetime)
    (payload : Fields) : Action RemediationProjection := do
  let s ← Exec.read
  let key := (tenantId, planId)
  let fingerprint := commandFingerprint sha factType payload
  match s.commands (tenantId, commandId) with
  | some existing => do
    Exec.require (existing = (planId, fingerprint))
      ⟨.idempotencyConflict, "command id was replayed with different remediation input"⟩
    match s.projections key with
    | none => Exec.raise ⟨.keyError, "projection"⟩
    | some projection => pure projection
  | none => do
    let facts := s.facts key
    Exec.require (facts.length < maxFacts) ⟨.integrityFailure, "remediation fact bound exceeded"⟩
    Exec.require ((facts.length : Int) = expectedVersion)
      ⟨.concurrencyConflict, "remediation aggregate version changed"⟩
    let previous := (facts.getLast?.map (·.canonicalDigest)).getD zeroHash
    let fact ← Exec.lift (buildFact sha tenantId planId facts.length previous factType commandId
      actorRef recordedAt payload)
    let projection ← Exec.lift (reduceRemediation (s.projections key) fact)
    Exec.modify fun s => s.record key (tenantId, commandId) (planId, fingerprint) fact projection
    pure projection

/-! ## The control store -/

/-- `put_plan`. -/
def putPlan (sha : Sha256) (plan : RemediationPlan) : Action Unit := do
  let s ← Exec.read
  let key := (plan.tenantId.val, plan.planId.val)
  Exec.require (∀ existing, s.plans key = some existing → existing.digest sha = plan.digest sha)
    ⟨.idempotencyConflict, "plan id was reused with different content"⟩
  Exec.modify fun s => { s with plans := Function.update s.plans key (some plan) }

/-- `put_approval`. -/
def putApproval (sha : Sha256) (approval : ActionApprovalRequest) : Action Unit := do
  let s ← Exec.read
  let key := (approval.tenantId.val, approval.approvalId.val)
  Exec.require (∀ existing, s.approvals key = some existing →
      existing.digest sha = approval.digest sha)
    ⟨.idempotencyConflict, "approval id was reused with different exact scope"⟩
  Exec.modify fun s => { s with approvals := Function.update s.approvals key (some approval) }

/-- `add_decision`. -/
def addDecision (sha : Sha256) (decision : ApprovalDecision) : Action Unit := do
  let s ← Exec.read
  let command := (decision.tenantId.val, decision.commandId.val)
  match s.decisionCommands command with
  | some existing =>
    Exec.require (existing = decision.digest sha)
      ⟨.idempotencyConflict, "approval command replay changed immutable decision"⟩
  | none => do
    let key := (decision.tenantId.val, decision.approvalId.val)
    Exec.require (∀ item ∈ s.decisions key, item.approverRef ≠ decision.approverRef)
      ⟨.idempotencyConflict, "approver already decided this approval"⟩
    Exec.modify fun s =>
      { s with decisions := Function.update s.decisions key (s.decisions key ++ [decision]),
               decisionCommands := Function.update s.decisionCommands command
                 (some (decision.digest sha)) }

/-- `put_verification`. -/
def putVerification (sha : Sha256) (verification : VerificationRecord) : Action Unit := do
  let s ← Exec.read
  let key := (verification.tenantId.val, verification.verificationId.val)
  Exec.require (∀ existing, s.verifications key = some existing →
      existing.digest sha = verification.digest sha)
    ⟨.idempotencyConflict, "verification replay changed"⟩
  Exec.modify fun s =>
    { s with verifications := Function.update s.verifications key (some verification) }

/-- `InMemoryActionPolicyStore.replace`. -/
def replacePolicy (policy : ActionPolicy) : Action Unit := do
  let s ← Exec.read
  Exec.require (∀ current, s.policies policy.tenantId.val = some current →
      current.revision < policy.revision)
    ⟨.concurrencyConflict, "action policy revision did not advance"⟩
  Exec.modify fun s =>
    { s with policies := Function.update s.policies policy.tenantId.val (some policy) }

/-! ## Claims and quota -/

/-- The exact binding of a claim. -/
def ActionIntent.binding (sha : Sha256) (intent : ActionIntent) :
    Digest × Digest × Digest × Digest × Digest × Identifier :=
  (intent.action.digest sha, intent.planDigest, intent.approvalDigest, intent.policyDigest,
   intent.action.target.resourceFingerprint, intent.fenceToken)

def EffectClaim.binding (claim : EffectClaim) :
    Digest × Digest × Digest × Digest × Digest × Identifier :=
  (claim.actionDigest, claim.planDigest, claim.approvalDigest, claim.policyDigest,
   claim.targetFingerprint, claim.fenceToken)

def EffectClaim.toRecord (claim : EffectClaim) (replayed : Bool) : EffectClaimRecord :=
  { claimToken := claim.claimToken, fenceToken := claim.fenceToken, attempt := claim.attempt,
    replayed, receipt := claim.receipt }

def claimTokenOf (sha : Sha256) (intent : ActionIntent) (workerRef : String) : Identifier :=
  stableIdentifier sha "effect-claim"
    [intent.tenantId.val, intent.operationId.val, workerRef, intent.attempt.repr,
     intent.fenceToken.val] 40

/-- `InMemoryEffectClaims.claim`. -/
def claimEffect (sha : Sha256) (intent : ActionIntent) (workerRef : String)
    (now claimUntil : Datetime) : Action EffectClaimRecord := do
  Exec.require (now < claimUntil) ⟨.valueError, "effect claim expiry must follow claim time"⟩
  let s ← Exec.read
  let key := (intent.tenantId.val, intent.operationId.val)
  let token := claimTokenOf sha intent workerRef
  match s.claims key with
  | some existing => do
    Exec.require (existing.binding = intent.binding sha)
      ⟨.effectConflict, "effect claim exact binding changed"⟩
    Exec.require (¬(existing.receipt.isNone = true ∧ now < existing.claimUntil
        ∧ existing.claimToken ≠ token))
      ⟨.concurrencyConflict, "effect attempt is actively claimed"⟩
    if existing.receipt.isNone = true ∧ existing.claimUntil ≤ now then do
      Exec.require (existing.attempt < intent.attempt)
        ⟨.concurrencyConflict, "effect retry attempt did not advance"⟩
      let renewed := { existing with attempt := intent.attempt, claimToken := token, claimUntil }
      Exec.modify fun s => { s with claims := Function.update s.claims key (some renewed) }
      pure (renewed.toRecord true)
    else pure (existing.toRecord true)
  | none => do
    let claim : EffectClaim :=
      { actionDigest := intent.action.digest sha, planDigest := intent.planDigest,
        approvalDigest := intent.approvalDigest, policyDigest := intent.policyDigest,
        targetFingerprint := intent.action.target.resourceFingerprint,
        fenceToken := intent.fenceToken, attempt := intent.attempt, claimToken := token,
        claimUntil, receipt := none }
    Exec.modify fun s => { s with claims := Function.update s.claims key (some claim) }
    pure (claim.toRecord false)

/-- `InMemoryEffectClaims.complete`. -/
def completeEffect (sha : Sha256) (receipt : ActionReceipt) (claimToken : Identifier) :
    Action Unit := do
  let s ← Exec.read
  let key := (receipt.tenantId.val, receipt.operationId.val)
  match s.claims key with
  | none => Exec.raise ⟨.concurrencyConflict, "stale effect claim completion rejected"⟩
  | some existing => do
    Exec.require (existing.claimToken = claimToken ∧ existing.fenceToken = receipt.fenceToken
        ∧ existing.attempt = receipt.attempt)
      ⟨.concurrencyConflict, "stale effect claim completion rejected"⟩
    match existing.receipt with
    | some recorded =>
      Exec.require (recorded.digest sha = receipt.digest sha)
        ⟨.idempotencyConflict, "effect claim receipt changed"⟩
    | none =>
      Exec.modify fun s =>
        { s with claims := Function.update s.claims key (some { existing with receipt := some receipt }) }

/-- `InMemoryEffectQuota.reserve`. -/
def reserveQuota (tenantId : String) (reservationId : Identifier) (units : Nat) :
    Action EffectQuotaDecision := do
  Exec.require (1 ≤ units) ⟨.valueError, "effect quota units must be positive"⟩
  let s ← Exec.read
  let key := (tenantId, reservationId.val)
  match s.reservations key with
  | some existing => pure existing
  | none => do
    let isAllowed := decide ((units : Int) ≤ s.remaining tenantId)
    let decision : EffectQuotaDecision :=
      { allowed := isAllowed, reservationId, units,
        reason := if isAllowed then "reserved" else "effect_quota_exhausted" }
    Exec.modify fun s =>
      { s with
        reservations := Function.update s.reservations key (some decision),
        remaining := if isAllowed then
          Function.update s.remaining tenantId (s.remaining tenantId - units) else s.remaining }
    pure decision

end Remediation

end Aegis
