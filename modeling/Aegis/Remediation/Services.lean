/-
  THE SERVICES OF REMEDIATION: approval and effects.

  `ApprovalService` takes a plan from its proposal through a request for approval to the decisions of
  the approvers.  `EffectService` dry-runs, executes, reconciles, verifies and rolls back ONE ACTION
  of an approved plan; each of its methods first validates the whole scope again (`validatedScope`)
  against the policy that is installed NOW.

  A method writes as it goes: the plan, the approval and the decision are stored before the ledger is
  asked to accept the fact, and the adapter is called between two facts.  So a method that raises may
  have written.

  `Op` lists the calls, the replacement of a tenant's policy among them; `step` runs one.
-/
import Mathlib
import Aegis.Remediation.Stores

namespace Aegis

namespace Remediation

/-! ## Checks shared by the methods -/

/-- The reason a policy refuses a plan at a time, if it has one. -/
def refusal (policy : ActionPolicy) (plan : RemediationPlan) (consumeQuota : Bool)
    (time : Datetime) : Option String :=
  if policy.enabled = false then some "effects_disabled"
  else if time < policy.maintenanceWindowStart ∨ policy.maintenanceWindowEnd ≤ time then
    some "outside_maintenance_window"
  else if riskOrder policy.maxRisk < riskOrder plan.risk then some "risk_exceeds_action_policy"
  else if policy.maxBlastRadius.order < plan.blastRadius.order then
    some "blast_radius_exceeds_action_policy"
  else if consumeQuota = true ∧ policy.remainingEffects < 1 then some "effect_quota_exhausted"
  else if ∃ action ∈ plan.actions, actionType ∉ policy.allowedActionTypes.map (·.val)
      ∨ action.target.resourceFingerprint ∉ policy.allowedTargetFingerprints
      ∨ action.target.namespaceName ∉ policy.allowedNamespaces then
    some "action_or_exact_target_not_allowlisted"
  else none

/-- `_require_action_policy`. -/
def requireActionPolicy (ports : Ports) (plan : RemediationPlan) (consumeQuota : Bool) :
    Action ActionPolicy := do
  let s ← Exec.read
  let time ← now ports
  match s.policies plan.tenantId.val with
  | none => Exec.raise ⟨.policyDenied, "no_current_action_policy"⟩
  | some policy =>
    match refusal policy plan consumeQuota time with
    | some reason => Exec.raise ⟨.policyDenied, reason⟩
    | none => pure policy

def notAvailable : Error := ⟨.policyDenied, "remediation_not_available"⟩

/-- `_require_plan`. -/
def requirePlan (tenantId planId : String) : Action RemediationPlan := do
  let s ← Exec.read
  match s.plans (tenantId, planId) with
  | none => Exec.raise notAvailable
  | some plan => pure plan

/-- `_require_approval`. -/
def requireApproval (tenantId approvalId : String) : Action ActionApprovalRequest := do
  let s ← Exec.read
  match s.approvals (tenantId, approvalId) with
  | none => Exec.raise notAvailable
  | some approval => pure approval

/-! ## Proposals and requests -/

/-- The fence of a plan. -/
def fenceOf (sha : Sha256) (plan : RemediationPlan) : Identifier :=
  stableIdentifier sha "effect-fence"
    [plan.tenantId.val, plan.planId.val, (plan.digest sha).val] 32

/-- `propose`. -/
def propose (sha : Sha256) (ports : Ports) (identity : IdentityContext) (plan : RemediationPlan)
    (commandId : String) : Action RemediationProjection := do
  authorize ports identity .remediationPropose plan.risk
  Exec.require (plan.tenantId = identity.tenantId) ⟨.policyDenied, "tenant_mismatch"⟩
  let current ← requireActionPolicy ports plan false
  Exec.require (current.snapshot sha = plan.policySnapshot)
    ⟨.policyDenied, "plan_policy_snapshot_is_not_current"⟩
  putPlan sha plan
  let actor := actorRef sha identity
  let time ← now ports
  let projection ← append sha plan.tenantId.val plan.planId.val 0 .proposalRecorded commandId
    actor.val time
    (Fields.of [("run_id", .str plan.runId.val), ("plan_digest", .str (plan.digest sha).val),
      ("fence_token", .str (fenceOf sha plan).val)])
  let time' ← now ports
  append sha plan.tenantId.val plan.planId.val projection.version .policyDecided
    (commandId ++ ":policy") actor.val time'
    (Fields.of [("allowed", .bool true), ("policy_digest", .str (current.digest sha).val),
      ("policy_revision", .int current.revision)])

/-- The requirement a policy sets for a plan. -/
def requirementOf (policy : ActionPolicy) (plan : RemediationPlan) : ApprovalRequirement where
  quorum := if plan.risk = .high then policy.highRiskQuorum else policy.normalQuorum
  requiredRoles := policy.approverRoles
  prohibitSelfApproval := policy.prohibitSelfApproval
  rationaleMinLength := 12
  rationaleMaxLength := 1000
  quorum_ok := by
    have h := policy.quorums_ok
    split <;> omega
  roles_ok := policy.roles_ok
  rationale_ok := by decide

/-- The id of the approval of a plan. -/
def approvalIdOf (sha : Sha256) (plan : RemediationPlan) : Identifier :=
  stableIdentifier sha "approval" [plan.tenantId.val, plan.planId.val, (plan.digest sha).val] 32

/-- `min(plan.expires_at, now + timedelta(hours=2))`. -/
def approvalExpiry (plan : RemediationPlan) (time : Datetime) : Datetime :=
  if time.addSeconds 7200 < plan.expiresAt then time.addSeconds 7200 else plan.expiresAt

/-- The approval request of a plan under a policy. -/
def buildApproval (sha : Sha256) (plan : RemediationPlan) (policy : ActionPolicy)
    (requestedByRef : Identifier) (time : Datetime) : Except Error ActionApprovalRequest :=
  if h : time < approvalExpiry plan time then
    .ok { approvalId := approvalIdOf sha plan, tenantId := plan.tenantId, planId := plan.planId,
          runId := plan.runId, planDigest := plan.digest sha,
          actionDigests := plan.actions.map (·.digest sha),
          targetFingerprint := plan.targetFingerprint, policySnapshot := policy.snapshot sha,
          requirement := requirementOf policy plan, requestedByRef, requestedAt := time,
          expiresAt := approvalExpiry plan time,
          actions_ok := by rw [List.length_map]; exact plan.actions_ok, expiry_ok := h }
  else .error (validationError "ActionApprovalRequest.expires_at")

/-- `request_approval`. -/
def requestApproval (sha : Sha256) (ports : Ports) (identity : IdentityContext) (planId : String)
    (expectedVersion : Int) (commandId : String) : Action ApprovalView := do
  authorize ports identity .approvalRequest .high
  let plan ← requirePlan identity.tenantId.val planId
  let current ← requireActionPolicy ports plan false
  let time ← now ports
  let approval ← Exec.lift (buildApproval sha plan current (actorRef sha identity) time)
  putApproval sha approval
  let projection ← append sha plan.tenantId.val plan.planId.val expectedVersion .approvalRequested
    commandId (actorRef sha identity).val time
    (Fields.of [("approval_id", .str approval.approvalId.val),
      ("approval_digest", .str (approval.digest sha).val),
      ("expires_at", .str approval.expiresAt.isoformat),
      ("quorum", .int approval.requirement.quorum)])
  pure { approval, decisions := [], status := projection.status, version := projection.version,
         grants := 0 }

/-! ## Decisions -/

/-- `sorted(set(roles).intersection(required_roles))`. -/
def matchingRoles (roles required : List Identifier) : List Identifier :=
  ((roles.filter (· ∈ required)).dedup).insertionSort (fun a b => a.val ≤ b.val)

/-- `sum(item.disposition is GRANT for item in decisions)`. -/
def grantCount (decisions : List ApprovalDecision) : Nat :=
  decisions.countP fun item => item.disposition = .grant

/-- The distinct approvers of the grants that meet `valid`. -/
def approvers (valid : ApprovalDecision → Bool) (decisions : List ApprovalDecision) :
    List Identifier :=
  ((decisions.filter fun item => item.disposition = .grant && valid item).map
    (·.approverRef)).dedup

/-- The decision of an approver. -/
def buildDecision (sha : Sha256) (identity : IdentityContext) (approval : ActionApprovalRequest)
    (plan : RemediationPlan) (policy : ActionPolicy) (role : Identifier)
    (disposition : ApprovalDisposition) (approvalId commandId rationale : String)
    (time : Datetime) : Except Error ApprovalDecision := do
  let command ← Identifier.parse "ApprovalDecision.command_id" commandId
  let subject ← Identifier.parse "ApprovalDecision.approval_id" approvalId
  if h : 1 ≤ rationale.length ∧ rationale.length ≤ 2000 then
    .ok { decisionId := stableIdentifier sha "decision"
            [identity.tenantId.val, approvalId, (actorRef sha identity).val, commandId] 32,
          commandId := command, approvalId := subject, tenantId := identity.tenantId, disposition,
          approverRef := actorRef sha identity, approverRole := role,
          planDigest := plan.digest sha, approvalDigest := approval.digest sha,
          policyDigest := policy.digest sha, roleRevision := policy.roleRevision, rationale,
          decidedAt := time, role_ok := policy.revisions_ok.2.1, rationale_ok := h }
  else .error (validationError "ApprovalDecision.rationale")

/-- The fact a decision records: a grant that completes the quorum approves the plan. -/
def decisionFact (approval : ActionApprovalRequest) (disposition : ApprovalDisposition)
    (decisions : List ApprovalDecision) : RemediationFactType :=
  match disposition with
  | .deny => .approvalDenied
  | .grant =>
    if approval.requirement.quorum ≤ (approvers (fun _ => true) decisions).length then
      .approvalGranted
    else .approvalRequested

/-- What `decide` is asked. -/
structure DecideRequest where
  approvalId : String
  disposition : ApprovalDisposition
  rationale : String
  expectedVersion : Int
  commandId : String
  planDigest : String
  approvalDigest : String

/-- The checks of `decide` on the exact scope, once the approval is known to be unexpired; they give
    the role the approver acts in. -/
def decideRole (sha : Sha256) (identity : IdentityContext) (request : DecideRequest)
    (approval : ActionApprovalRequest) (plan : RemediationPlan) (policy : ActionPolicy) :
    Except Error Identifier :=
  if request.planDigest ≠ (plan.digest sha).val ∨ approval.planDigest ≠ plan.digest sha then
    .error ⟨.policyDenied, "plan_digest_changed"⟩
  else if request.approvalDigest ≠ (approval.digest sha).val
      ∨ approval.policySnapshot ≠ policy.snapshot sha then
    .error ⟨.policyDenied, "approval_or_policy_digest_changed"⟩
  else if approval.requirement.prohibitSelfApproval = true
      ∧ actorRef sha identity = plan.proposerRef then
    .error ⟨.policyDenied, "self_approval_prohibited"⟩
  else match matchingRoles identity.roles approval.requirement.requiredRoles with
  | [] => .error ⟨.policyDenied, "approver_role_not_permitted"⟩
  | role :: _ =>
    if approval.requirement.rationaleMinLength ≤ request.rationale.length
        ∧ request.rationale.length ≤ approval.requirement.rationaleMaxLength then .ok role
    else .error ⟨.policyDenied, "approval_rationale_outside_bounds"⟩

/-- `decide`. -/
def decideApproval (sha : Sha256) (ports : Ports) (identity : IdentityContext)
    (request : DecideRequest) : Action ApprovalView := do
  authorize ports identity .approvalDecide .high
  Exec.require (identity.principalKind = .human)
    ⟨.policyDenied, "approval_requires_human_principal"⟩
  let approval ← requireApproval identity.tenantId.val request.approvalId
  let plan ← requirePlan identity.tenantId.val approval.planId.val
  let s ← Exec.read
  match s.projections (identity.tenantId.val, plan.planId.val) with
  | none => Exec.raise ⟨.integrityFailure, "approval projection binding is invalid"⟩
  | some projection => do
    Exec.require (projection.approvalId = some request.approvalId)
      ⟨.integrityFailure, "approval projection binding is invalid"⟩
    Exec.require ((projection.version : Int) = request.expectedVersion)
      ⟨.concurrencyConflict, "approval aggregate version changed"⟩
    Exec.require (projection.status = .approvalPending)
      ⟨.integrityFailure, "approval is already terminal"⟩
    let policy ← requireActionPolicy ports plan false
    let time ← now ports
    let actor := actorRef sha identity
    if approval.expiresAt ≤ time ∨ plan.expiresAt ≤ time then do
      let _ ← append sha plan.tenantId.val plan.planId.val request.expectedVersion .approvalExpired
        request.commandId actor.val time (Fields.of [("approval_id", .str request.approvalId)])
      Exec.raise ⟨.approvalExpired, "approval has expired"⟩
    else do
      let role ← Exec.lift (decideRole sha identity request approval plan policy)
      let decision ← Exec.lift (buildDecision sha identity approval plan policy role
        request.disposition request.approvalId request.commandId request.rationale time)
      addDecision sha decision
      let s ← Exec.read
      let decisions := s.decisions (identity.tenantId.val, request.approvalId)
      let factType := decisionFact approval request.disposition decisions
      let projection ← append sha plan.tenantId.val plan.planId.val request.expectedVersion factType
        request.commandId actor.val time
        (Fields.of [("approval_id", .str request.approvalId),
          ("approval_digest", .str (approval.digest sha).val),
          ("decision_digest", .str (decision.digest sha).val),
          ("grant_count", .int (grantCount decisions))])
      Exec.require (projection.status = factType.status)
        ⟨.integrityFailure, "approval projection status mismatch"⟩
      pure { approval, decisions, status := projection.status, version := projection.version,
             grants := grantCount decisions }

/-- `revoke`. -/
def revoke (sha : Sha256) (ports : Ports) (identity : IdentityContext) (approvalId : String)
    (expectedVersion : Int) (commandId rationale : String) : Action RemediationProjection := do
  authorize ports identity .approvalRevoke .high
  Exec.require (12 ≤ rationale.length) ⟨.policyDenied, "revocation_rationale_too_short"⟩
  let approval ← requireApproval identity.tenantId.val approvalId
  let s ← Exec.read
  match s.projections (identity.tenantId.val, approval.planId.val) with
  | none => Exec.raise ⟨.integrityFailure, "approval projection binding is invalid"⟩
  | some projection => do
    Exec.require (projection.approvalId = some approvalId)
      ⟨.integrityFailure, "approval projection binding is invalid"⟩
    Exec.require ((projection.version : Int) = expectedVersion)
      ⟨.concurrencyConflict, "approval aggregate version changed"⟩
    Exec.require (projection.status = .approvalPending ∨ projection.status = .approved)
      ⟨.integrityFailure, "approval is already terminal"⟩
    let time ← now ports
    append sha identity.tenantId.val approval.planId.val expectedVersion .approvalRevoked commandId
      (actorRef sha identity).val time
      (Fields.of [("approval_id", .str approvalId), ("reason_code", .str "human_revocation")])

/-- `get`. -/
def getApproval (ports : Ports) (identity : IdentityContext) (approvalId : String) :
    Action (Option ApprovalView) := do
  authorize ports identity .remediationRead .low
  let s ← Exec.read
  match s.approvals (identity.tenantId.val, approvalId) with
  | none => pure none
  | some approval =>
    match s.projections (identity.tenantId.val, approval.planId.val) with
    | none => Exec.raise ⟨.integrityFailure, "approval has no remediation projection"⟩
    | some projection => do
      let decisions := s.decisions (identity.tenantId.val, approvalId)
      pure (some { approval, decisions, status := projection.status,
                   version := projection.version, grants := grantCount decisions })

/-! ## The scope of an effect -/

/-- What `_validated_scope` returns. -/
structure EffectScope where
  plan : RemediationPlan
  approval : ActionApprovalRequest
  policy : ActionPolicy
  projection : RemediationProjection

/-- A decision made on exactly this scope. -/
def exactDecision (sha : Sha256) (scope : EffectScope) (item : ApprovalDecision) : Bool :=
  item.planDigest = scope.plan.digest sha && item.approvalDigest = scope.approval.digest sha
    && item.policyDigest = scope.policy.digest sha && item.roleRevision = scope.policy.roleRevision

/-- The records of a scope, as the stores hold them. -/
def scopeRecords (identity : IdentityContext) (planId actionId : String) : Action EffectScope := do
  let s ← Exec.read
  match s.plans (identity.tenantId.val, planId), s.projections (identity.tenantId.val, planId) with
  | some plan, some projection =>
    match projection.approvalId with
    | none => Exec.raise notAvailable
    | some approvalId => do
      Exec.require (∃ action ∈ plan.actions, action.actionId.val = actionId)
        ⟨.policyDenied, "action_not_in_exact_plan"⟩
      match s.approvals (identity.tenantId.val, approvalId) with
      | none => Exec.raise ⟨.integrityFailure, "approved remediation omitted approval record"⟩
      | some approval =>
        match s.policies identity.tenantId.val with
        | none => Exec.raise ⟨.policyDenied, "no_current_action_policy"⟩
        | some policy => pure { plan, approval, policy, projection }
  | _, _ => Exec.raise notAvailable

def staleScope : Error := ⟨.approvalExpired, "approval exact scope is stale"⟩

/-- The checks of a scope against digests, clock and decisions. -/
def checkScope (sha : Sha256) (ports : Ports) (identity : IdentityContext) (scope : EffectScope)
    (allowedStatuses : List RemediationStatus) : Action Unit := do
  Exec.require (scope.approval.planDigest = scope.plan.digest sha
      ∧ some (scope.approval.digest sha).val = scope.projection.approvalDigest
      ∧ scope.approval.policySnapshot = scope.policy.snapshot sha
      ∧ scope.plan.policySnapshot = scope.policy.snapshot sha) staleScope
  let time ← now ports
  Exec.require (time < scope.approval.expiresAt) staleScope
  let time' ← now ports
  Exec.require (time' < scope.plan.expiresAt) staleScope
  let s ← Exec.read
  let decisions := s.decisions (identity.tenantId.val, scope.approval.approvalId.val)
  Exec.require (∀ item ∈ decisions, item.disposition ≠ .deny)
    ⟨.approvalDenied, "approval was denied"⟩
  Exec.require (scope.approval.requirement.quorum
      ≤ (approvers (exactDecision sha scope) decisions).length)
    ⟨.approvalDenied, "approval quorum is not satisfied"⟩
  Exec.require (scope.projection.status ∈ allowedStatuses)
    (if scope.projection.status = .revoked then ⟨.approvalRevoked, "approval was revoked"⟩
     else ⟨.effectConflict, "remediation state does not permit this operation"⟩)

/-- The quota reservation of an action. -/
def reservationOf (sha : Sha256) (plan : RemediationPlan) (actionId : String) : Identifier :=
  stableIdentifier sha "effect-quota" [plan.tenantId.val, plan.planId.val, actionId] 32

/-- `_validated_scope`. -/
def validatedScope (sha : Sha256) (ports : Ports) (identity : IdentityContext)
    (planId actionId : String) (allowedStatuses : List RemediationStatus) :
    Action EffectScope := do
  authorize ports identity .effectExecute .high
  let scope ← scopeRecords identity planId actionId
  checkScope sha ports identity scope allowedStatuses
  let _ ← requireActionPolicy ports scope.plan true
  let _ ← now ports
  let quota ← reserveQuota scope.plan.tenantId.val (reservationOf sha scope.plan actionId) 1
  Exec.require (quota.allowed = true) ⟨.policyDenied, quota.reason⟩
  pure scope

/-- What the methods of the effect service are asked. -/
structure EffectRequest where
  planId : String
  actionId : String
  expectedVersion : Int
  operationId : String
  attempt : Int

/-- The intent for an action of a scope. -/
def buildIntent (sha : Sha256) (scope : EffectScope) (request : EffectRequest) (dryRun : Bool)
    (time : Datetime) : Except Error ActionIntent :=
  match scope.plan.actions.find? (fun a => a.actionId.val == request.actionId) with
  | none => .error ⟨.valueError, "StopIteration"⟩
  | some action => do
    let operationId ← Identifier.parse "ActionIntent.operation_id" request.operationId
    if h : 1 ≤ request.attempt ∧ request.attempt ≤ 16 then
      .ok { tenantId := scope.plan.tenantId, runId := scope.plan.runId,
            planId := scope.plan.planId, action, planDigest := scope.plan.digest sha,
            approvalDigest := scope.approval.digest sha, policyDigest := scope.policy.digest sha,
            operationId, attempt := request.attempt.toNat,
            fenceToken := scope.projection.fenceToken, requestedAt := time, dryRun,
            attempt_ok := by omega }
    else .error (validationError "ActionIntent.attempt")

/-- `_intent`. -/
def effectIntent (sha : Sha256) (ports : Ports) (scope : EffectScope) (request : EffectRequest)
    (dryRun : Bool) : Action ActionIntent := do
  let time ← now ports
  Exec.lift (buildIntent sha scope request dryRun time)

/-- A fact about a plan, recorded by an actor at the current time. -/
def appendNow (sha : Sha256) (ports : Ports) (plan : RemediationPlan) (expectedVersion : Int)
    (factType : RemediationFactType) (commandId : String) (actor : Identifier) (payload : Fields) :
    Action RemediationProjection := do
  let time ← now ports
  append sha plan.tenantId.val plan.planId.val expectedVersion factType commandId actor.val time
    payload

/-! ## Effects -/

/-- `preflight`. -/
def preflight (sha : Sha256) (ports : Ports) (identity : IdentityContext) (request : EffectRequest) :
    Action ActionReceipt := do
  let scope ← validatedScope sha ports identity request.planId request.actionId
    [.approved, .preflight]
  let intent ← effectIntent sha ports scope request true
  let actor := actorRef sha identity
  let started ← appendNow sha ports scope.plan request.expectedVersion .preflightRequested
    (request.operationId ++ ":intent") actor
    (Fields.of [("action_id", .str request.actionId),
      ("action_digest", .str (intent.action.digest sha).val)])
  let receipt ← callAdapter (.dryRun intent) fun n => ports.dryRun n intent
  if receipt.outcome ≠ .dryRunSucceeded then do
    let _ ← appendNow sha ports scope.plan started.version .executionFailed
      (request.operationId ++ ":result") actor
      (Fields.of [("detail_code", .str receipt.detailCode.val)])
    Exec.raise ⟨.effectConflict, "action dry-run did not succeed"⟩
  else do
    let _ ← appendNow sha ports scope.plan started.version .dryRunSucceeded
      (request.operationId ++ ":result") actor
      (Fields.of [("effect_receipt_digest", .str (receipt.digest sha).val)])
    pure receipt

/-- The claim of an effect, for as long as an attempt may take. -/
def claimIntent (sha : Sha256) (ports : Ports) (intent : ActionIntent) (actor : Identifier) :
    Action EffectClaimRecord := do
  let time ← now ports
  claimEffect sha intent actor.val time (time.addSeconds intent.action.retry.attemptTimeoutSeconds)

/-- Completion of a claim with a receipt. -/
def completeIntent (sha : Sha256) (ports : Ports) (claim : EffectClaimRecord)
    (receipt : ActionReceipt) : Action Unit := do
  let _ ← now ports
  completeEffect sha receipt claim.claimToken

def literalIdentifier (s : String) (h : isIdentifier s = true := by exact computed) : Identifier := ⟨s, h⟩

/-- A receipt the service writes itself. -/
def ownReceipt (ports : Ports) (intent : ActionIntent) (outcome : EffectOutcome)
    (detailCode : Identifier) (providerReceiptRef : Option Identifier) : Action ActionReceipt := do
  let time ← now ports
  pure (syntheticReceipt intent outcome detailCode time providerReceiptRef)

/-- The attempt itself: observe first, execute only from the state before, with every precondition
    met. -/
def attemptEffect (ports : Ports) (intent : ActionIntent) : Action ActionReceipt := do
  let before ← callAdapter (.observe intent) fun n => ports.observe n intent
  if before.state = .applied then
    ownReceipt ports intent .duplicate (literalIdentifier "already_applied")
      before.providerReceiptRef
  else if before.state ≠ .before ∧ before.state ≠ .notApplied then
    ownReceipt ports intent .conflict (literalIdentifier "observe_before_execute_conflict") none
  else if ¬∀ condition ∈ intent.action.preconditions,
      conditionMatches condition before.facts = true then
    ownReceipt ports intent .conflict (literalIdentifier "precondition_failed") none
  else callAdapter (.execute intent) fun n => ports.execute n intent

/-- The fact an outcome of an execution records. -/
def executionFact : EffectOutcome → Option RemediationFactType
  | .succeeded => some .executionSucceeded
  | .duplicate => some .executionSucceeded
  | .failed => some .executionFailed
  | .conflict => some .executionFailed
  | .ambiguous => some .executionAmbiguous
  | .dryRunSucceeded => none
  | .compensated => none

/-- The receipt of an execution and the version it is recorded after: the receipt of the claim, or a
    new attempt. -/
def executionReceipt (sha : Sha256) (ports : Ports) (scope : EffectScope) (request : EffectRequest)
    (actor : Identifier) (intent : ActionIntent) (claim : EffectClaimRecord)
    (requested : RemediationProjection) : Action (ActionReceipt × Nat) :=
  match claim.receipt with
  | some receipt => pure (receipt, requested.version)
  | none => do
    let started ← appendNow sha ports scope.plan requested.version .executionStarted
      (request.operationId ++ ":started:" ++ request.attempt.repr) actor
      (Fields.of [("attempt", .int request.attempt)])
    let receipt ← attemptEffect ports intent
    completeIntent sha ports claim receipt
    pure (receipt, started.version)

/-- `execute`. -/
def executeAction (sha : Sha256) (ports : Ports) (identity : IdentityContext)
    (request : EffectRequest) : Action ActionReceipt := do
  let scope ← validatedScope sha ports identity request.planId request.actionId
    [.preflight, .executing, .succeeded]
  let intent ← effectIntent sha ports scope request false
  let actor := actorRef sha identity
  let requested ← appendNow sha ports scope.plan request.expectedVersion .executionRequested
    (request.operationId ++ ":intent") actor
    (Fields.of [("action_id", .str request.actionId),
      ("idempotency_key", .str intent.action.idempotencyKey.val),
      ("fence_token", .str scope.projection.fenceToken.val)])
  let claim ← claimIntent sha ports intent actor
  let (receipt, resultVersion) ← executionReceipt sha ports scope request actor intent claim
    requested
  match executionFact receipt.outcome with
  | none => Exec.raise ⟨.integrityFailure, "action adapter returned an invalid execute outcome"⟩
  | some factType => do
    let _ ← appendNow sha ports scope.plan resultVersion factType
      (request.operationId ++ ":result") actor
      (Fields.of [("effect_receipt_digest", .str (receipt.digest sha).val),
        ("detail_code", .str receipt.detailCode.val)])
    Exec.require (receipt.outcome ≠ .ambiguous)
      ⟨.effectAmbiguous, "external action outcome requires reconciliation"⟩
    Exec.require (receipt.outcome = .succeeded ∨ receipt.outcome = .duplicate)
      ⟨.effectConflict, "external action failed safely"⟩
    pure receipt

/-- The receipt of what a reconciliation observes: the effect is there, or nothing is known. -/
def observedReceipt (ports : Ports) (intent : ActionIntent) (observed : ActionObservation) :
    Action ActionReceipt :=
  if observed.state = .applied then
    ownReceipt ports intent .succeeded (literalIdentifier "reconciled_applied")
      observed.providerReceiptRef
  else ownReceipt ports intent .ambiguous (literalIdentifier "reconciliation_inconclusive") none

/-- The receipt of a reconciliation: the receipt of the claim, or what is observed now. -/
def reconciledReceipt (sha : Sha256) (ports : Ports) (intent : ActionIntent)
    (claim : EffectClaimRecord) : Action ActionReceipt :=
  match claim.receipt with
  | some receipt => pure receipt
  | none => do
    let observed ← callAdapter (.observe intent) fun n => ports.observe n intent
    let receipt ← observedReceipt ports intent observed
    completeIntent sha ports claim receipt
    pure receipt

/-- The start of a reconciliation, recorded when the outcome is ambiguous; it gives the version that
    the result is recorded after. -/
def startReconciliation (sha : Sha256) (ports : Ports) (scope : EffectScope)
    (request : EffectRequest) (actor : Identifier) : Action Int :=
  if scope.projection.status = .ambiguous then do
    let reconciling ← appendNow sha ports scope.plan request.expectedVersion .reconciliationStarted
      (request.operationId ++ ":intent") actor (Fields.of [("action_id", .str request.actionId)])
    pure reconciling.version
  else pure request.expectedVersion

/-- `reconcile`. -/
def reconcile (sha : Sha256) (ports : Ports) (identity : IdentityContext) (request : EffectRequest) :
    Action ActionReceipt := do
  let scope ← validatedScope sha ports identity request.planId request.actionId
    [.ambiguous, .reconciling, .succeeded]
  let intent ← effectIntent sha ports scope request false
  let actor := actorRef sha identity
  let currentVersion ← startReconciliation sha ports scope request actor
  let claim ← claimIntent sha ports intent actor
  let receipt ← reconciledReceipt sha ports intent claim
  if receipt.outcome = .succeeded then do
    let _ ← appendNow sha ports scope.plan currentVersion .reconciliationResolved
      (request.operationId ++ ":result") actor
      (Fields.of [("effect_receipt_digest", .str (receipt.digest sha).val)])
    pure receipt
  else do
    let _ ← appendNow sha ports scope.plan currentVersion .escalated
      (request.operationId ++ ":escalate") actor
      (Fields.of [("reason_code", .str "reconciliation_inconclusive")])
    Exec.raise ⟨.effectAmbiguous, "reconciliation could not prove the external outcome"⟩

/-- The id of a verification. -/
def verificationIdOf (sha : Sha256) (plan : RemediationPlan) (actionId operationId : String) :
    Identifier :=
  stableIdentifier sha "verification"
    [plan.tenantId.val, plan.planId.val, actionId, operationId] 32

/-- The record of a verification. -/
def buildVerification (sha : Sha256) (plan : RemediationPlan) (action : ActionDefinition)
    (operationId : String) (receipt : ActionReceipt) (freshEvidence : List Citation)
    (observed : ActionObservation) (time : Datetime) : Except Error VerificationRecord :=
  if h : 1 ≤ freshEvidence.length ∧ freshEvidence.length ≤ 32 then
    .ok { verificationId := verificationIdOf sha plan action.actionId.val operationId,
          tenantId := plan.tenantId, planId := plan.planId, actionId := action.actionId,
          effectReceiptDigest := receipt.digest sha, freshEvidence, observation := observed,
          postconditionsSatisfied := decide (receipt.recordedAt < observed.observedAt)
            && !freshEvidence.isEmpty
            && action.postconditions.all fun item => conditionMatches item observed.facts,
          verifiedAt := time, evidence_ok := h }
  else .error (validationError "VerificationRecord.fresh_evidence")

/-- The stored verification, or a new one from what is observed now. -/
def verificationRecord (sha : Sha256) (ports : Ports) (scope : EffectScope) (request : EffectRequest)
    (intent : ActionIntent) (effectReceipt : ActionReceipt) (freshEvidence : List Citation) :
    Action VerificationRecord := do
  let s ← Exec.read
  let verificationId := verificationIdOf sha scope.plan request.actionId request.operationId
  match s.verifications (scope.plan.tenantId.val, verificationId.val) with
  | some record => pure record
  | none => do
    let observed ← callAdapter (.observe intent) fun n => ports.observe n intent
    let time ← now ports
    let record ← Exec.lift (buildVerification sha scope.plan intent.action request.operationId
      effectReceipt freshEvidence observed time)
    putVerification sha record
    pure record

/-- `verify`. -/
def verify (sha : Sha256) (ports : Ports) (identity : IdentityContext) (request : EffectRequest)
    (effectReceipt : ActionReceipt) (freshEvidence : List Citation) :
    Action VerificationRecord := do
  let scope ← validatedScope sha ports identity request.planId request.actionId
    [.succeeded, .verified, .verificationFailed]
  let intent ← effectIntent sha ports scope request false
  let actor := actorRef sha identity
  Exec.require (scope.projection.effectReceiptDigest = some (effectReceipt.digest sha).val
      ∧ effectReceipt.tenantId = scope.plan.tenantId ∧ effectReceipt.planId = scope.plan.planId
      ∧ effectReceipt.actionId.val = request.actionId
      ∧ effectReceipt.fenceToken = scope.projection.fenceToken)
    ⟨.integrityFailure, "verification receipt binding is invalid"⟩
  let requested ← appendNow sha ports scope.plan request.expectedVersion .verificationRequested
    (request.operationId ++ ":intent") actor
    (Fields.of [("effect_receipt_digest", .str (effectReceipt.digest sha).val)])
  let record ← verificationRecord sha ports scope request intent effectReceipt freshEvidence
  let factType : RemediationFactType :=
    if record.postconditionsSatisfied = true then .verified else .verificationFailed
  let _ ← appendNow sha ports scope.plan requested.version factType
    (request.operationId ++ ":result") actor
    (Fields.of [("verification_digest", .str (record.digest sha).val)])
  Exec.require (record.postconditionsSatisfied = true)
    ⟨.verificationFailed, "fresh evidence did not satisfy postconditions"⟩
  pure record

/-- The receipt of a rollback: the receipt of the claim, or a compensation. -/
def compensationReceipt (sha : Sha256) (ports : Ports) (intent : ActionIntent)
    (claim : EffectClaimRecord) : Action ActionReceipt :=
  match claim.receipt with
  | some receipt => pure receipt
  | none => do
    let receipt ← callAdapter (.compensate intent) fun n => ports.compensate n intent
    completeIntent sha ports claim receipt
    pure receipt

/-- `rollback`. -/
def rollback (sha : Sha256) (ports : Ports) (identity : IdentityContext) (request : EffectRequest) :
    Action ActionReceipt := do
  let scope ← validatedScope sha ports identity request.planId request.actionId
    [.failed, .succeeded, .verificationFailed, .rolledBack]
  Exec.require (∀ action ∈ scope.plan.actions, action.actionId.val = request.actionId →
      action.compensation.enabled = true) ⟨.policyDenied, "compensation_not_enabled"⟩
  let intent ← effectIntent sha ports scope request false
  let actor := actorRef sha identity
  let requested ← appendNow sha ports scope.plan request.expectedVersion .rollbackRequested
    (request.operationId ++ ":intent") actor (Fields.of [("action_id", .str request.actionId)])
  let claim ← claimIntent sha ports intent actor
  let receipt ← compensationReceipt sha ports intent claim
  let factType : RemediationFactType :=
    if receipt.outcome = .compensated then .rollbackSucceeded else .rollbackFailed
  let _ ← appendNow sha ports scope.plan requested.version factType
    (request.operationId ++ ":result") actor
    (Fields.of [("effect_receipt_digest", .str (receipt.digest sha).val),
      ("detail_code", .str receipt.detailCode.val)])
  Exec.require (receipt.outcome = .compensated)
    ⟨.effectConflict, "rollback failed and requires operator escalation"⟩
  pure receipt

/-! ## The services as a state machine -/

/-- The calls. -/
inductive Op where
  | propose (identity : IdentityContext) (plan : RemediationPlan) (commandId : String)
  | requestApproval (identity : IdentityContext) (planId : String) (expectedVersion : Int)
      (commandId : String)
  | decide (identity : IdentityContext) (request : DecideRequest)
  | revoke (identity : IdentityContext) (approvalId : String) (expectedVersion : Int)
      (commandId rationale : String)
  | get (identity : IdentityContext) (approvalId : String)
  | preflight (identity : IdentityContext) (request : EffectRequest)
  | execute (identity : IdentityContext) (request : EffectRequest)
  | reconcile (identity : IdentityContext) (request : EffectRequest)
  | verify (identity : IdentityContext) (request : EffectRequest) (effectReceipt : ActionReceipt)
      (freshEvidence : List Citation)
  | rollback (identity : IdentityContext) (request : EffectRequest)
  | replacePolicy (policy : ActionPolicy)

/-- What a call returns. -/
inductive Result where
  | projection (projection : RemediationProjection)
  | view (view : Option ApprovalView)
  | receipt (receipt : ActionReceipt)
  | verification (record : VerificationRecord)
  | none

/-- The body of a call. -/
def Op.body (sha : Sha256) (ports : Ports) : Op → Action Result
  | .propose identity plan commandId => do
    return .projection (← Remediation.propose sha ports identity plan commandId)
  | .requestApproval identity planId expectedVersion commandId => do
    return .view (some (← Remediation.requestApproval sha ports identity planId expectedVersion
      commandId))
  | .decide identity request => do
    return .view (some (← decideApproval sha ports identity request))
  | .revoke identity approvalId expectedVersion commandId rationale => do
    return .projection (← Remediation.revoke sha ports identity approvalId expectedVersion commandId
      rationale)
  | .get identity approvalId => do return .view (← getApproval ports identity approvalId)
  | .preflight identity request => do
    return .receipt (← Remediation.preflight sha ports identity request)
  | .execute identity request => do return .receipt (← executeAction sha ports identity request)
  | .reconcile identity request => do
    return .receipt (← Remediation.reconcile sha ports identity request)
  | .verify identity request effectReceipt freshEvidence => do
    return .verification (← Remediation.verify sha ports identity request effectReceipt
      freshEvidence)
  | .rollback identity request => do
    return .receipt (← Remediation.rollback sha ports identity request)
  | .replacePolicy policy => do
    Remediation.replacePolicy policy
    return .none

/-- One call: what it returns or raises, and the state it leaves. -/
def step (sha : Sha256) (ports : Ports) (s : State) (op : Op) : Except Error Result × State :=
  op.body sha ports s

abbrev HistoryEntry := Machine.Entry State Op (Except Error Result)

/-- The state after a sequence of calls. -/
def run (sha : Sha256) (ports : Ports) (start : State) (ops : List Op) : State :=
  Machine.final (step sha ports) start ops

/-- The history of a sequence of calls. -/
def history (sha : Sha256) (ports : Ports) (start : State) (ops : List Op) : List HistoryEntry :=
  Machine.trace (step sha ports) start ops

end Remediation

end Aegis
