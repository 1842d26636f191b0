/-
  THE RECORDS OF REMEDIATION: plans, policies, approvals, decisions, intents, receipts, facts.

  Most records carry a digest of their own content, and their constructor refuses any other.  So a
  digest is no field here: it is a FUNCTION of the content (`planDigest`, `policyDigest`, ...), and a
  record with a wrong digest cannot be built.  The digest is the hash of the canonical text of the
  record's document, which is what `model_dump(mode="json")` gives.

  A Python float has a text (its `repr`, which is what a document holds) and a value (which is what a
  condition compares); nothing here depends on how the two are related.
-/
import Mathlib
import Aegis.Domain

namespace Aegis

namespace Remediation

/-! ## Enumerations -/

inductive BlastRadius where
  | oneReplicaSet | oneService | multiService
deriving DecidableEq, Repr

def BlastRadius.value : BlastRadius → String
  | .oneReplicaSet => "one-replica-set"
  | .oneService => "one-service"
  | .multiService => "multi-service"

/-- `_blast_order`. -/
def BlastRadius.order : BlastRadius → Nat
  | .oneReplicaSet => 1
  | .oneService => 2
  | .multiService => 3

inductive RemediationStatus where
  | proposed | approvalPending | approved | denied | expired | revoked | preflight | executing
  | succeeded | failed | ambiguous | reconciling | rollingBack | rolledBack | cancelled | verified
  | verificationFailed | escalated
deriving DecidableEq, Repr

def RemediationStatus.value : RemediationStatus → String
  | .proposed => "proposed"
  | .approvalPending => "approval_pending"
  | .approved => "approved"
  | .denied => "denied"
  | .expired => "expired"
  | .revoked => "revoked"
  | .preflight => "preflight"
  | .executing => "executing"
  | .succeeded => "succeeded"
  | .failed => "failed"
  | .ambiguous => "ambiguous"
  | .reconciling => "reconciling"
  | .rollingBack => "rolling_back"
  | .rolledBack => "rolled_back"
  | .cancelled => "cancelled"
  | .verified => "verified"
  | .verificationFailed => "verification_failed"
  | .escalated => "escalated"

/-- The dispositions of a decision; `revoke` is not one of them. -/
inductive ApprovalDisposition where
  | grant | deny
deriving DecidableEq, Repr

def ApprovalDisposition.value : ApprovalDisposition → String
  | .grant => "grant"
  | .deny => "deny"

inductive EffectOutcome where
  | dryRunSucceeded | succeeded | failed | ambiguous | duplicate | conflict | compensated
deriving DecidableEq, Repr

def EffectOutcome.value : EffectOutcome → String
  | .dryRunSucceeded => "dry_run_succeeded"
  | .succeeded => "succeeded"
  | .failed => "failed"
  | .ambiguous => "ambiguous"
  | .duplicate => "duplicate"
  | .conflict => "conflict"
  | .compensated => "compensated"

inductive ObservationState where
  | before | applied | notApplied | conflict | unknown | recovered
deriving DecidableEq, Repr

def ObservationState.value : ObservationState → String
  | .before => "before"
  | .applied => "applied"
  | .notApplied => "not_applied"
  | .conflict => "conflict"
  | .unknown => "unknown"
  | .recovered => "recovered"

/-- `_RISK_ORDER`. -/
def riskOrder : RiskLevel → Nat
  | .low => 1
  | .medium => 2
  | .high => 3

def riskValue : RiskLevel → String
  | .low => "low"
  | .medium => "medium"
  | .high => "high"

/-! ## Conditions -/

/-- The value of a Python float. -/
inductive FloatValue where
  | nan | negInf | posInf | finite (q : ℚ)
deriving DecidableEq

/-- `a < b` of float values: never with a NaN. -/
def FloatValue.lt : FloatValue → FloatValue → Bool
  | .nan, _ => false
  | _, .nan => false
  | .negInf, .negInf => false
  | .negInf, _ => true
  | _, .negInf => false
  | .posInf, _ => false
  | .finite _, .posInf => true
  | .finite a, .finite b => decide (a < b)

/-- `a == b` of float values: never with a NaN. -/
def FloatValue.eq (a b : FloatValue) : Bool := a != .nan && decide (a = b)

structure PyFloat where
  text : FloatText
  value : FloatValue
deriving DecidableEq

/-- `str | int | float | bool`. -/
inductive Scalar where
  | str (s : String)
  | int (i : Int)
  | float (x : PyFloat)
  | bool (b : Bool)
deriving DecidableEq

def Scalar.toJson : Scalar → Json
  | .str s => .str s
  | .int i => .int i
  | .float x => .float x.text
  | .bool b => .bool b

/-- The number a scalar is for `isinstance(x, int | float)`: a bool is an int. -/
def Scalar.number : Scalar → Option FloatValue
  | .str _ => none
  | .int i => some (.finite i)
  | .float x => some x.value
  | .bool b => some (.finite (if b then 1 else 0))

/-- `a == b`. -/
def Scalar.eq (a b : Scalar) : Bool :=
  match a, b with
  | .str s, .str t => s == t
  | a, b =>
    match a.number, b.number with
    | some x, some y => x.eq y
    | _, _ => false

inductive ConditionOperator where
  | equals | notEquals | greaterThan | lessThan
deriving DecidableEq, Repr

def ConditionOperator.value : ConditionOperator → String
  | .equals => "equals"
  | .notEquals => "not_equals"
  | .greaterThan => "greater_than"
  | .lessThan => "less_than"

structure Condition where
  fact : Identifier
  operator : ConditionOperator
  expected : Scalar
deriving DecidableEq

def Condition.modelDump (c : Condition) : Json :=
  .obj [("fact", .str c.fact.val), ("operator", .str c.operator.value),
    ("expected", c.expected.toJson)]

abbrev ObservedFacts := AList (fun _ : String => Scalar)

/-- `_condition_matches`. -/
def conditionMatches (condition : Condition) (facts : ObservedFacts) : Bool :=
  match facts.lookup condition.fact.val with
  | none => false
  | some actual =>
    match condition.operator with
    | .equals => actual.eq condition.expected
    | .notEquals => !actual.eq condition.expected
    | .greaterThan =>
      match actual.number, condition.expected.number with
      | some x, some y => y.lt x
      | _, _ => false
    | .lessThan =>
      match actual.number, condition.expected.number with
      | some x, some y => x.lt y
      | _, _ => false

/-! ## Actions -/

/-- `KubernetesTarget`; its provider and kind are constants. -/
structure KubernetesTarget where
  clusterRef : Identifier
  namespaceName : Identifier
  name : Identifier
  uid : Identifier
  resourceVersion : Identifier
  resourceFingerprint : Digest
deriving DecidableEq

def KubernetesTarget.modelDump (t : KubernetesTarget) : Json :=
  .obj [("provider", .str "kubernetes"), ("cluster_ref", .str t.clusterRef.val),
    ("namespace", .str t.namespaceName.val), ("kind", .str "Deployment"), ("name", .str t.name.val),
    ("uid", .str t.uid.val), ("resource_version", .str t.resourceVersion.val),
    ("resource_fingerprint", .str t.resourceFingerprint.val)]

/-- `RetryContract`; its owner and `observe_before_retry` are constants. -/
structure RetryContract where
  maximumAttempts : Nat
  attemptTimeoutSeconds : Nat
  scheduleTimeoutSeconds : Nat
  heartbeatTimeoutSeconds : Nat
  bounds : (1 ≤ maximumAttempts ∧ maximumAttempts ≤ 5) ∧
    (5 ≤ attemptTimeoutSeconds ∧ attemptTimeoutSeconds ≤ 900) ∧
    (5 ≤ scheduleTimeoutSeconds ∧ scheduleTimeoutSeconds ≤ 3600) ∧
    (5 ≤ heartbeatTimeoutSeconds ∧ heartbeatTimeoutSeconds ≤ 120)
deriving DecidableEq

def RetryContract.modelDump (r : RetryContract) : Json :=
  .obj [("owner", .str "temporal"), ("maximum_attempts", .int r.maximumAttempts),
    ("attempt_timeout_seconds", .int r.attemptTimeoutSeconds),
    ("schedule_timeout_seconds", .int r.scheduleTimeoutSeconds),
    ("heartbeat_timeout_seconds", .int r.heartbeatTimeoutSeconds),
    ("observe_before_retry", .bool true)]

inductive CompensationAction where
  | observeOnly | rollbackRevision
deriving DecidableEq, Repr

def CompensationAction.value : CompensationAction → String
  | .observeOnly => "observe_only"
  | .rollbackRevision => "rollback_revision"

def optionalStr (i : Option Identifier) : Json := i.elim .null (fun i => .str i.val)

structure CompensationContract where
  enabled : Bool
  action : CompensationAction
  rollbackRevision : Option Identifier
  requiresFreshApproval : Bool
  revision_bound : action = .rollbackRevision → rollbackRevision ≠ none
  disabled_observes : enabled = false → action = .observeOnly
deriving DecidableEq

/-- A compensation that only observes names no revision to roll back to. -/
theorem observes_unbound : CompensationAction.observeOnly = .rollbackRevision → (none : Option Identifier) ≠ none :=
  nofun

theorem enabled_observes : true = false → CompensationAction.observeOnly = .observeOnly := fun _ => rfl

def CompensationContract.modelDump (c : CompensationContract) : Json :=
  .obj [("enabled", .bool c.enabled), ("action", .str c.action.value),
    ("rollback_revision", optionalStr c.rollbackRevision),
    ("requires_fresh_approval", .bool c.requiresFreshApproval)]

/-- The one admitted `action_type`. -/
def actionType : String := "kubernetes.rollout_restart"

/-- `ActionDefinition`; its schema version, action type and `dry_run_required` are constants. -/
structure ActionDefinition where
  actionId : Identifier
  target : KubernetesTarget
  risk : RiskLevel
  blastRadius : BlastRadius
  preconditions : List Condition
  postconditions : List Condition
  retry : RetryContract
  idempotencyKey : Identifier
  compensation : CompensationContract
  preconditions_ok : 1 ≤ preconditions.length ∧ preconditions.length ≤ 16
  postconditions_ok : 1 ≤ postconditions.length ∧ postconditions.length ≤ 16
deriving DecidableEq

/-- The document of an action, without its digest. -/
def ActionDefinition.document (a : ActionDefinition) : List (String × Json) :=
  [("schema_version", .int 1), ("action_id", .str a.actionId.val), ("action_type", .str actionType),
   ("target", a.target.modelDump), ("risk", .str (riskValue a.risk)),
   ("blast_radius", .str a.blastRadius.value),
   ("preconditions", .arr (a.preconditions.map Condition.modelDump)),
   ("postconditions", .arr (a.postconditions.map Condition.modelDump)),
   ("dry_run_required", .bool true), ("retry", a.retry.modelDump),
   ("idempotency_key", .str a.idempotencyKey.val), ("compensation", a.compensation.modelDump)]

/-- `canonical_digest` of a document. -/
def canonicalDigest (sha : Sha256) (document : List (String × Json)) : Digest :=
  sha.hexdigest (canonicalJson (.obj document))

def ActionDefinition.digest (sha : Sha256) (a : ActionDefinition) : Digest :=
  canonicalDigest sha a.document

def ActionDefinition.modelDump (sha : Sha256) (a : ActionDefinition) : Json :=
  .obj (a.document ++ [("canonical_digest", .str (a.digest sha).val)])

/-! ## Policies -/

structure PolicySnapshot where
  policyId : Identifier
  revision : Nat
  roleRevision : Nat
  quotaRevision : Nat
  policyDigest : Digest
  revisions_ok : 1 ≤ revision ∧ 1 ≤ roleRevision ∧ 1 ≤ quotaRevision
deriving DecidableEq

def PolicySnapshot.modelDump (p : PolicySnapshot) : Json :=
  .obj [("policy_id", .str p.policyId.val), ("revision", .int p.revision),
    ("role_revision", .int p.roleRevision), ("quota_revision", .int p.quotaRevision),
    ("policy_digest", .str p.policyDigest.val)]

/-- `ActionPolicy`; `require_accepted_critic` is a constant. -/
structure ActionPolicy where
  tenantId : Identifier
  policyId : Identifier
  revision : Nat
  roleRevision : Nat
  quotaRevision : Nat
  enabled : Bool
  allowedActionTypes : List Identifier
  allowedTargetFingerprints : List Digest
  allowedNamespaces : List Identifier
  maintenanceWindowStart : Datetime
  maintenanceWindowEnd : Datetime
  maxRisk : RiskLevel
  maxBlastRadius : BlastRadius
  remainingEffects : Nat
  highRiskQuorum : Nat
  normalQuorum : Nat
  approverRoles : List Identifier
  prohibitSelfApproval : Bool
  revisions_ok : 1 ≤ revision ∧ 1 ≤ roleRevision ∧ 1 ≤ quotaRevision
  quorums_ok : (2 ≤ highRiskQuorum ∧ highRiskQuorum ≤ 5) ∧ (1 ≤ normalQuorum ∧ normalQuorum ≤ 5)
  roles_ok : 1 ≤ approverRoles.length ∧ approverRoles.length ≤ 8
  window_ok : maintenanceWindowStart < maintenanceWindowEnd
deriving DecidableEq

def ActionPolicy.document (p : ActionPolicy) : List (String × Json) :=
  [("tenant_id", .str p.tenantId.val), ("policy_id", .str p.policyId.val),
   ("revision", .int p.revision), ("role_revision", .int p.roleRevision),
   ("quota_revision", .int p.quotaRevision), ("enabled", .bool p.enabled),
   ("allowed_action_types", .arr (p.allowedActionTypes.map fun i => .str i.val)),
   ("allowed_target_fingerprints", .arr (p.allowedTargetFingerprints.map fun i => .str i.val)),
   ("allowed_namespaces", .arr (p.allowedNamespaces.map fun i => .str i.val)),
   ("maintenance_window_start", .str p.maintenanceWindowStart.jsonText),
   ("maintenance_window_end", .str p.maintenanceWindowEnd.jsonText),
   ("max_risk", .str (riskValue p.maxRisk)), ("max_blast_radius", .str p.maxBlastRadius.value),
   ("remaining_effects", .int p.remainingEffects), ("high_risk_quorum", .int p.highRiskQuorum),
   ("normal_quorum", .int p.normalQuorum),
   ("approver_roles", .arr (p.approverRoles.map fun i => .str i.val)),
   ("prohibit_self_approval", .bool p.prohibitSelfApproval), ("require_accepted_critic", .bool true)]

def ActionPolicy.digest (sha : Sha256) (p : ActionPolicy) : Digest := canonicalDigest sha p.document

/-- `snapshot`. -/
def ActionPolicy.snapshot (sha : Sha256) (p : ActionPolicy) : PolicySnapshot where
  policyId := p.policyId
  revision := p.revision
  roleRevision := p.roleRevision
  quotaRevision := p.quotaRevision
  policyDigest := p.digest sha
  revisions_ok := p.revisions_ok

/-! ## Plans -/

/-- `Citation`: the four extended fields are all there or all missing. -/
structure Citation where
  evidenceId : Identifier
  locator : String
  contentHash : Digest
  extended : Option (Digest × Identifier × Identifier × Nat)
  locator_ok : 1 ≤ locator.length ∧ locator.length ≤ 512
  page_ok : ∀ e, extended = some e → 1 ≤ e.2.2.2 ∧ e.2.2.2 ≤ 100
deriving DecidableEq

/-- A locator of one character, and a citation that names no page. -/
theorem short_locator : 1 ≤ "l".length ∧ "l".length ≤ 512 := by decide

theorem no_page (e : Digest × Identifier × Identifier × Nat) (h : none = some e) :
    1 ≤ e.2.2.2 ∧ e.2.2.2 ≤ 100 := nomatch h

def Citation.modelDump (c : Citation) : Json :=
  .obj [("evidence_id", .str c.evidenceId.val), ("locator", .str c.locator),
    ("content_hash", .str c.contentHash.val),
    ("provenance_digest", c.extended.elim .null (fun e => .str e.1.val)),
    ("source_id", c.extended.elim .null (fun e => .str e.2.1.val)),
    ("query_id", c.extended.elim .null (fun e => .str e.2.2.1.val)),
    ("page_number", c.extended.elim .null (fun e => .int e.2.2.2))]

/-- `RemediationPlan`; its schema version and critic status are constants. -/
structure RemediationPlan where
  planId : Identifier
  tenantId : Identifier
  runId : Identifier
  incidentId : Identifier
  proposerRef : Identifier
  targetFingerprint : Digest
  risk : RiskLevel
  blastRadius : BlastRadius
  rationale : String
  actions : List ActionDefinition
  evidence : List Citation
  policySnapshot : PolicySnapshot
  createdAt : Datetime
  expiresAt : Datetime
  rationale_ok : 1 ≤ rationale.length ∧ rationale.length ≤ 2000
  actions_ok : 1 ≤ actions.length ∧ actions.length ≤ 8
  evidence_ok : 1 ≤ evidence.length ∧ evidence.length ≤ 64
  expiry_ok : createdAt < expiresAt
  ids_unique : (actions.map (·.actionId)).Nodup
  target_ok : ∀ a ∈ actions, a.target.resourceFingerprint = targetFingerprint
  risk_ok : ∀ a ∈ actions, riskOrder a.risk ≤ riskOrder risk
deriving DecidableEq

/-- The document of a plan, without its digest. -/
def RemediationPlan.document (sha : Sha256) (p : RemediationPlan) : List (String × Json) :=
  [("schema_version", .int 1), ("plan_id", .str p.planId.val), ("tenant_id", .str p.tenantId.val),
   ("run_id", .str p.runId.val), ("incident_id", .str p.incidentId.val),
   ("proposer_ref", .str p.proposerRef.val), ("target_fingerprint", .str p.targetFingerprint.val),
   ("risk", .str (riskValue p.risk)), ("blast_radius", .str p.blastRadius.value),
   ("rationale", .str p.rationale), ("actions", .arr (p.actions.map (·.modelDump sha))),
   ("evidence", .arr (p.evidence.map Citation.modelDump)), ("critic_status", .str "accepted"),
   ("policy_snapshot", p.policySnapshot.modelDump), ("created_at", .str p.createdAt.jsonText),
   ("expires_at", .str p.expiresAt.jsonText)]

/-- The `plan_digest` of a plan. -/
def RemediationPlan.digest (sha : Sha256) (p : RemediationPlan) : Digest :=
  canonicalDigest sha (p.document sha)

/-! ## Approvals -/

/-- `ApprovalRequirement`; `distinct_approvers` is a constant. -/
structure ApprovalRequirement where
  quorum : Nat
  requiredRoles : List Identifier
  prohibitSelfApproval : Bool
  rationaleMinLength : Nat
  rationaleMaxLength : Nat
  quorum_ok : 1 ≤ quorum ∧ quorum ≤ 5
  roles_ok : 1 ≤ requiredRoles.length ∧ requiredRoles.length ≤ 8
  rationale_ok : 1 ≤ rationaleMinLength ∧ rationaleMinLength ≤ 256 ∧ 16 ≤ rationaleMaxLength ∧
    rationaleMaxLength ≤ 2000 ∧ rationaleMinLength ≤ rationaleMaxLength
deriving DecidableEq

def ApprovalRequirement.modelDump (r : ApprovalRequirement) : Json :=
  .obj [("quorum", .int r.quorum), ("required_roles", .arr (r.requiredRoles.map fun i => .str i.val)),
    ("distinct_approvers", .bool true), ("prohibit_self_approval", .bool r.prohibitSelfApproval),
    ("rationale_min_length", .int r.rationaleMinLength),
    ("rationale_max_length", .int r.rationaleMaxLength)]

/-- `ActionApprovalRequest`; its schema version is a constant. -/
structure ActionApprovalRequest where
  approvalId : Identifier
  tenantId : Identifier
  planId : Identifier
  runId : Identifier
  planDigest : Digest
  actionDigests : List Digest
  targetFingerprint : Digest
  policySnapshot : PolicySnapshot
  requirement : ApprovalRequirement
  requestedByRef : Identifier
  requestedAt : Datetime
  expiresAt : Datetime
  actions_ok : 1 ≤ actionDigests.length ∧ actionDigests.length ≤ 8
  expiry_ok : requestedAt < expiresAt
deriving DecidableEq

def ActionApprovalRequest.document (a : ActionApprovalRequest) : List (String × Json) :=
  [("schema_version", .int 1), ("approval_id", .str a.approvalId.val),
   ("tenant_id", .str a.tenantId.val), ("plan_id", .str a.planId.val), ("run_id", .str a.runId.val),
   ("plan_digest", .str a.planDigest.val),
   ("action_digests", .arr (a.actionDigests.map fun d => .str d.val)),
   ("target_fingerprint", .str a.targetFingerprint.val),
   ("policy_snapshot", a.policySnapshot.modelDump), ("requirement", a.requirement.modelDump),
   ("requested_by_ref", .str a.requestedByRef.val), ("requested_at", .str a.requestedAt.jsonText),
   ("expires_at", .str a.expiresAt.jsonText)]

def ActionApprovalRequest.digest (sha : Sha256) (a : ActionApprovalRequest) : Digest :=
  canonicalDigest sha a.document

/-- `ApprovalDecision`; its schema version and purpose are constants. -/
structure ApprovalDecision where
  decisionId : Identifier
  commandId : Identifier
  approvalId : Identifier
  tenantId : Identifier
  disposition : ApprovalDisposition
  approverRef : Identifier
  approverRole : Identifier
  planDigest : Digest
  approvalDigest : Digest
  policyDigest : Digest
  roleRevision : Nat
  rationale : String
  decidedAt : Datetime
  role_ok : 1 ≤ roleRevision
  rationale_ok : 1 ≤ rationale.length ∧ rationale.length ≤ 2000

def ApprovalDecision.document (d : ApprovalDecision) : List (String × Json) :=
  [("schema_version", .int 1), ("decision_id", .str d.decisionId.val),
   ("command_id", .str d.commandId.val), ("approval_id", .str d.approvalId.val),
   ("tenant_id", .str d.tenantId.val), ("disposition", .str d.disposition.value),
   ("approver_ref", .str d.approverRef.val), ("approver_role", .str d.approverRole.val),
   ("purpose", .str "incident-response"), ("plan_digest", .str d.planDigest.val),
   ("approval_digest", .str d.approvalDigest.val), ("policy_digest", .str d.policyDigest.val),
   ("role_revision", .int d.roleRevision), ("rationale", .str d.rationale),
   ("decided_at", .str d.decidedAt.jsonText)]

def ApprovalDecision.digest (sha : Sha256) (d : ApprovalDecision) : Digest :=
  canonicalDigest sha d.document

/-- `ApprovalView`. -/
structure ApprovalView where
  approval : ActionApprovalRequest
  decisions : List ApprovalDecision
  status : RemediationStatus
  version : Nat
  grants : Nat

/-! ## Intents, observations and receipts -/

/-- `ActionIntent`; its schema version is a constant. -/
structure ActionIntent where
  tenantId : Identifier
  runId : Identifier
  planId : Identifier
  action : ActionDefinition
  planDigest : Digest
  approvalDigest : Digest
  policyDigest : Digest
  operationId : Identifier
  attempt : Nat
  fenceToken : Identifier
  requestedAt : Datetime
  dryRun : Bool
  attempt_ok : 1 ≤ attempt ∧ attempt ≤ 16

/-- `ActionObservation`; its schema version is a constant. -/
structure ActionObservation where
  tenantId : Identifier
  planId : Identifier
  actionId : Identifier
  operationId : Identifier
  targetFingerprint : Digest
  state : ObservationState
  facts : ObservedFacts
  observedAt : Datetime
  providerReceiptRef : Option Identifier
  attemptFence : Identifier
  facts_ok : facts.entries.length ≤ 32

def ActionObservation.modelDump (o : ActionObservation) : Json :=
  .obj [("schema_version", .int 1), ("tenant_id", .str o.tenantId.val),
    ("plan_id", .str o.planId.val), ("action_id", .str o.actionId.val),
    ("operation_id", .str o.operationId.val), ("target_fingerprint", .str o.targetFingerprint.val),
    ("state", .str o.state.value),
    ("facts", .obj (o.facts.entries.map fun e => (e.1, e.2.toJson))),
    ("observed_at", .str o.observedAt.jsonText),
    ("provider_receipt_ref", optionalStr o.providerReceiptRef),
    ("attempt_fence", .str o.attemptFence.val)]

/-- `ActionReceipt`; its schema version is a constant. -/
structure ActionReceipt where
  tenantId : Identifier
  planId : Identifier
  actionId : Identifier
  operationId : Identifier
  idempotencyKey : Identifier
  fenceToken : Identifier
  attempt : Nat
  outcome : EffectOutcome
  providerReceiptRef : Option Identifier
  targetFingerprint : Digest
  recordedAt : Datetime
  detailCode : Identifier
  attempt_ok : 1 ≤ attempt ∧ attempt ≤ 16

def ActionReceipt.document (r : ActionReceipt) : List (String × Json) :=
  [("schema_version", .int 1), ("tenant_id", .str r.tenantId.val), ("plan_id", .str r.planId.val),
   ("action_id", .str r.actionId.val), ("operation_id", .str r.operationId.val),
   ("idempotency_key", .str r.idempotencyKey.val), ("fence_token", .str r.fenceToken.val),
   ("attempt", .int r.attempt), ("outcome", .str r.outcome.value),
   ("provider_receipt_ref", optionalStr r.providerReceiptRef),
   ("target_fingerprint", .str r.targetFingerprint.val), ("recorded_at", .str r.recordedAt.jsonText),
   ("detail_code", .str r.detailCode.val)]

def ActionReceipt.digest (sha : Sha256) (r : ActionReceipt) : Digest :=
  canonicalDigest sha r.document

/-- `VerificationRecord`; its schema version is a constant. -/
structure VerificationRecord where
  verificationId : Identifier
  tenantId : Identifier
  planId : Identifier
  actionId : Identifier
  effectReceiptDigest : Digest
  freshEvidence : List Citation
  observation : ActionObservation
  postconditionsSatisfied : Bool
  verifiedAt : Datetime
  evidence_ok : 1 ≤ freshEvidence.length ∧ freshEvidence.length ≤ 32

def VerificationRecord.document (v : VerificationRecord) : List (String × Json) :=
  [("schema_version", .int 1), ("verification_id", .str v.verificationId.val),
   ("tenant_id", .str v.tenantId.val), ("plan_id", .str v.planId.val),
   ("action_id", .str v.actionId.val), ("effect_receipt_digest", .str v.effectReceiptDigest.val),
   ("fresh_evidence", .arr (v.freshEvidence.map Citation.modelDump)),
   ("observation", v.observation.modelDump),
   ("postconditions_satisfied", .bool v.postconditionsSatisfied),
   ("verified_at", .str v.verifiedAt.jsonText)]

def VerificationRecord.digest (sha : Sha256) (v : VerificationRecord) : Digest :=
  canonicalDigest sha v.document

/-- `_synthetic_receipt`. -/
def syntheticReceipt (intent : ActionIntent) (outcome : EffectOutcome) (detailCode : Identifier)
    (recordedAt : Datetime) (providerReceiptRef : Option Identifier) : ActionReceipt where
  tenantId := intent.tenantId
  planId := intent.planId
  actionId := intent.action.actionId
  operationId := intent.operationId
  idempotencyKey := intent.action.idempotencyKey
  fenceToken := intent.fenceToken
  attempt := intent.attempt
  outcome
  providerReceiptRef
  targetFingerprint := intent.action.target.resourceFingerprint
  recordedAt
  detailCode
  attempt_ok := intent.attempt_ok

/-! ## Facts -/

inductive RemediationFactType where
  | proposalRecorded | policyDecided | approvalRequested | approvalGranted | approvalDenied
  | approvalExpired | approvalRevoked | preflightRequested | dryRunSucceeded | executionRequested
  | executionStarted | executionSucceeded | executionFailed | executionAmbiguous
  | reconciliationStarted | reconciliationResolved | rollbackRequested | rollbackSucceeded
  | rollbackFailed | cancellationRequested | cancelled | verificationRequested | verified
  | verificationFailed | escalated
deriving DecidableEq, Repr

def RemediationFactType.value : RemediationFactType → String
  | .proposalRecorded => "remediation.proposal_recorded"
  | .policyDecided => "remediation.policy_decided"
  | .approvalRequested => "remediation.approval_requested"
  | .approvalGranted => "remediation.approval_granted"
  | .approvalDenied => "remediation.approval_denied"
  | .approvalExpired => "remediation.approval_expired"
  | .approvalRevoked => "remediation.approval_revoked"
  | .preflightRequested => "remediation.preflight_requested"
  | .dryRunSucceeded => "remediation.dry_run_succeeded"
  | .executionRequested => "remediation.execution_requested"
  | .executionStarted => "remediation.execution_started"
  | .executionSucceeded => "remediation.execution_succeeded"
  | .executionFailed => "remediation.execution_failed"
  | .executionAmbiguous => "remediation.execution_ambiguous"
  | .reconciliationStarted => "remediation.reconciliation_started"
  | .reconciliationResolved => "remediation.reconciliation_resolved"
  | .rollbackRequested => "remediation.rollback_requested"
  | .rollbackSucceeded => "remediation.rollback_succeeded"
  | .rollbackFailed => "remediation.rollback_failed"
  | .cancellationRequested => "remediation.cancellation_requested"
  | .cancelled => "remediation.cancelled"
  | .verificationRequested => "remediation.verification_requested"
  | .verified => "remediation.verified"
  | .verificationFailed => "remediation.verification_failed"
  | .escalated => "remediation.escalated"

/-- `RemediationFact`; its schema version is a constant.  Its digest is a field: the constructor does
    not check it. -/
structure RemediationFact where
  tenantId : Identifier
  planId : Identifier
  sequence : Nat
  factId : Identifier
  factType : RemediationFactType
  commandId : Identifier
  actorRef : Identifier
  recordedAt : Datetime
  payload : Fields
  previousDigest : Digest
  canonicalDigest : Digest
  sequence_ok : 1 ≤ sequence
  payload_ok : payload.entries.length ≤ 32

/-- `RemediationProjection`.  The optional references are set by copies that do not validate. -/
structure RemediationProjection where
  tenantId : Identifier
  planId : Identifier
  runId : Identifier
  status : RemediationStatus
  version : Nat
  planDigest : Digest
  approvalId : Option String
  approvalDigest : Option String
  effectReceiptDigest : Option String
  verificationDigest : Option String
  fenceToken : Identifier
  lastFactDigest : Digest
  updatedAt : Datetime

end Remediation

end Aegis
