/-
  ACCESS RECORDS: tenants, principals, grants and policies, and the identity that a token stands for.

  An identity keeps its grants ONE BY ONE: each binding has its own purpose, ceiling and expiry, and its own
  permissions.  Roles, permissions and purposes of the identity are flattened from them, and the constructor
  refuses an identity whose flattened sets are not those of its bindings.  Which binding allows what is
  therefore decided on the bindings alone.

  What a role permits is looked up in `definitions`; a token says nothing about it.
-/
import Mathlib
import Aegis.Lib.Exec
import Aegis.Domain

namespace Aegis

namespace Access

/-! ## Actions and roles -/

inductive Action where
  | investigationRun | investigationRead | tenantRead | policyRead | policyWrite | quotaRead | quotaWrite
  | auditRead | modelCatalogRead | modelUsageRead | modelHealthRead | evidenceQueryRead
  | evidenceCursorRead | orchestrationArtifactRead | remediationPropose | remediationRead
  | approvalRequest | approvalDecide | approvalRevoke | effectExecute | effectRead | sandboxExecute
  | sandboxRead | sandboxArtifactRead | memoryWrite | memoryRead | memoryRetrieve | memoryDelete
  | operationsRead | supportRead | replayRead | projectionRebuild | interoperabilityRead
  | interoperabilityInvoke | interoperabilityTrustAdmin
deriving DecidableEq, Repr

def Action.text : Action → String
  | .investigationRun => "investigation:run"
  | .investigationRead => "investigation:read"
  | .tenantRead => "tenant:read"
  | .policyRead => "policy:read"
  | .policyWrite => "policy:write"
  | .quotaRead => "quota:read"
  | .quotaWrite => "quota:write"
  | .auditRead => "audit:read"
  | .modelCatalogRead => "model:catalog:read"
  | .modelUsageRead => "model:usage:read"
  | .modelHealthRead => "model:health:read"
  | .evidenceQueryRead => "evidence:query:read"
  | .evidenceCursorRead => "evidence:cursor:read"
  | .orchestrationArtifactRead => "orchestration:artifact:read"
  | .remediationPropose => "remediation:propose"
  | .remediationRead => "remediation:read"
  | .approvalRequest => "approval:request"
  | .approvalDecide => "approval:decide"
  | .approvalRevoke => "approval:revoke"
  | .effectExecute => "effect:execute"
  | .effectRead => "effect:read"
  | .sandboxExecute => "sandbox:execute"
  | .sandboxRead => "sandbox:read"
  | .sandboxArtifactRead => "sandbox:artifact:read"
  | .memoryWrite => "memory:write"
  | .memoryRead => "memory:read"
  | .memoryRetrieve => "memory:retrieve"
  | .memoryDelete => "memory:delete"
  | .operationsRead => "operations:read"
  | .supportRead => "support:read"
  | .replayRead => "replay:read"
  | .projectionRebuild => "projection:rebuild"
  | .interoperabilityRead => "interoperability:read"
  | .interoperabilityInvoke => "interoperability:invoke"
  | .interoperabilityTrustAdmin => "interoperability:trust:admin"

theorem Action.isIdentifier_text (action : Action) : isIdentifier action.text = true := by
  cases action <;> decide

/-- `action.value`. -/
def Action.value (action : Action) : Identifier := ⟨action.text, action.isIdentifier_text⟩

theorem Action.value_inj {a b : Action} (h : a.value = b.value) : a = b := by
  have htext : a.text = b.text := congrArg Subtype.val h
  revert h htext
  cases a <;> cases b <;> first | exact fun _ _ => rfl | (intro _ h; revert h; decide)

/-- `_RISK_ORDER`. -/
def riskOrder : RiskLevel → Nat
  | .low => 1
  | .medium => 2
  | .high => 3

/-- `risk.value`. -/
def riskValue : RiskLevel → String
  | .low => "low"
  | .medium => "medium"
  | .high => "high"

/-- `RoleCatalog.DEFINITIONS`; a role outside it permits nothing. -/
def definitions (role : String) : List Action :=
  match role with
  | "incident-responder" =>
    [.investigationRun, .investigationRead, .evidenceQueryRead, .evidenceCursorRead, .modelCatalogRead,
      .modelHealthRead, .modelUsageRead, .orchestrationArtifactRead, .remediationPropose,
      .remediationRead, .approvalRequest, .effectRead, .sandboxExecute, .sandboxRead,
      .sandboxArtifactRead, .memoryWrite, .memoryRead, .memoryRetrieve, .operationsRead, .supportRead,
      .replayRead, .tenantRead, .policyRead, .quotaRead]
  | "incident-viewer" =>
    [.investigationRead, .evidenceQueryRead, .evidenceCursorRead, .modelCatalogRead, .modelHealthRead,
      .modelUsageRead, .orchestrationArtifactRead, .remediationRead, .effectRead, .sandboxRead,
      .sandboxArtifactRead, .memoryRead, .memoryRetrieve, .operationsRead, .tenantRead, .policyRead,
      .quotaRead]
  | "tenant-admin" =>
    [.tenantRead, .policyRead, .policyWrite, .quotaRead, .quotaWrite, .auditRead, .evidenceQueryRead,
      .evidenceCursorRead, .modelCatalogRead, .modelHealthRead, .modelUsageRead,
      .orchestrationArtifactRead, .remediationRead, .approvalDecide, .approvalRevoke, .effectRead,
      .sandboxRead, .sandboxArtifactRead, .memoryWrite, .memoryRead, .memoryRetrieve, .memoryDelete,
      .operationsRead, .supportRead, .replayRead, .projectionRebuild]
  | "tenant-auditor" =>
    [.tenantRead, .policyRead, .quotaRead, .auditRead, .evidenceQueryRead, .evidenceCursorRead,
      .modelCatalogRead, .modelHealthRead, .modelUsageRead, .orchestrationArtifactRead, .remediationRead,
      .effectRead, .sandboxRead, .sandboxArtifactRead, .memoryRead, .operationsRead, .supportRead,
      .replayRead]
  | "workload-investigator" =>
    [.investigationRun, .investigationRead, .modelCatalogRead, .orchestrationArtifactRead,
      .modelHealthRead, .modelUsageRead, .quotaRead, .sandboxExecute, .sandboxRead, .sandboxArtifactRead,
      .memoryRead, .memoryRetrieve]
  | "incident-commander" => [.remediationRead, .approvalDecide, .approvalRevoke, .effectRead]
  | "change-approver" => [.remediationRead, .approvalDecide, .approvalRevoke, .effectRead]
  | "effect-worker" => [.remediationRead, .effectExecute, .effectRead]
  | _ => []

/-- `sorted(values)`. -/
def sortedValues (values : List Identifier) : List Identifier :=
  values.insertionSort fun a b => a.val ≤ b.val

/-- `tuple(sorted(set(values)))`. -/
def sortedSet (values : List Identifier) : List Identifier := sortedValues values.dedup

@[simp] theorem mem_sortedValues {values : List Identifier} {x : Identifier} :
    x ∈ sortedValues values ↔ x ∈ values := List.mem_insertionSort _

@[simp] theorem mem_sortedSet {values : List Identifier} {x : Identifier} :
    x ∈ sortedSet values ↔ x ∈ values := by
  rw [sortedSet, mem_sortedValues, List.mem_dedup]

/-- `RoleCatalog.permissions_for`. -/
def permissionsFor (role : String) : List Identifier := sortedValues ((definitions role).map Action.value)

/-- A role permits exactly what its definition lists. -/
theorem mem_permissionsFor {role : String} {action : Action} :
    action.value ∈ permissionsFor role ↔ action ∈ definitions role := by
  rw [permissionsFor, mem_sortedValues, List.mem_map]
  constructor
  · rintro ⟨listed, hlisted, hvalue⟩
    rw [← Action.value_inj hvalue]; exact hlisted
  · exact fun h => ⟨action, h, rfl⟩

/-! ## Stored records -/

inductive TenantStatus where
  | active | suspended
deriving DecidableEq, Repr

inductive PrincipalStatus where
  | active | disabled
deriving DecidableEq, Repr

inductive GrantStatus where
  | active | revoked
deriving DecidableEq, Repr

/-- `TenantRecord`; display names and versions are read by nobody here. -/
structure TenantRecord where
  tenantId : Identifier
  status : TenantStatus

structure PrincipalRecord where
  tenantId : Identifier
  issuer : Issuer
  subjectId : SubjectIdentifier
  principalKind : PrincipalKind
  status : PrincipalStatus
  grantVersion : Nat
  version_ok : 1 ≤ grantVersion

structure GrantRecord where
  grantId : Identifier
  tenantId : Identifier
  issuer : Issuer
  subjectId : SubjectIdentifier
  role : Identifier
  purpose : Identifier
  riskCeiling : RiskLevel
  status : GrantStatus
  expiresAt : Datetime

structure PolicyRecord where
  policyId : Identifier
  tenantId : Identifier
  revision : Nat
  allowedActions : List Identifier
  allowedPurposes : List Identifier
  maxRisk : RiskLevel
  revision_ok : 1 ≤ revision

/-! ## Identities -/

structure GrantBinding where
  role : Identifier
  purpose : Identifier
  permissions : List Identifier
  riskCeiling : RiskLevel
  expiresAt : Datetime

namespace GrantBinding

/-- Equality of two bindings, which compares expiries as instants. -/
def same (a b : GrantBinding) : Bool :=
  decide (a.role = b.role) && decide (a.purpose = b.purpose) && decide (a.permissions = b.permissions)
    && decide (a.riskCeiling = b.riskCeiling) && decide (a.expiresAt.instant = b.expiresAt.instant)

/-- `set(value)`: the first of equal bindings stays. -/
def distinct : List GrantBinding → List GrantBinding
  | [] => []
  | grant :: grants => grant :: (distinct grants).filter fun other => !grant.same other

theorem distinct_subset (grants : List GrantBinding) : distinct grants ⊆ grants := by
  induction grants with
  | nil => exact List.Subset.refl _
  | cons grant grants ih =>
    intro x hx
    rcases List.mem_cons.mp hx with rfl | hx
    · exact List.mem_cons_self
    · exact List.mem_cons_of_mem _ (ih (List.mem_filter.mp hx).1)

/-- The key of `normalize_grants`: purpose, role, ceiling and expiry. -/
def before (a b : GrantBinding) : Prop :=
  a.purpose.val < b.purpose.val ∨ a.purpose = b.purpose ∧
    (a.role.val < b.role.val ∨ a.role = b.role ∧
      (riskValue a.riskCeiling < riskValue b.riskCeiling ∨ a.riskCeiling = b.riskCeiling ∧
        a.expiresAt ≤ b.expiresAt))

instance (a b : GrantBinding) : Decidable (a.before b) := inferInstanceAs (Decidable (_ ∨ _))

/-- `normalize_grants`. -/
def normalize (grants : List GrantBinding) : List GrantBinding := (distinct grants).insertionSort before

theorem normalize_subset (grants : List GrantBinding) : normalize grants ⊆ grants :=
  fun _ hx => distinct_subset grants ((List.mem_insertionSort _).mp hx)

end GrantBinding

structure IdentityContext where
  tenantId : Identifier
  issuer : Issuer
  subjectId : SubjectIdentifier
  principalKind : PrincipalKind
  roles : List Identifier
  permissions : List Identifier
  purposes : List Identifier
  grants : List GrantBinding
  grantVersion : Nat
  authenticatedAt : Datetime
  expiresAt : Datetime
  requestId : Identifier
  traceId : Identifier
  version_ok : 1 ≤ grantVersion
  expiry_ok : authenticatedAt < expiresAt
  roles_ok : roles = sortedSet (grants.map fun grant => grant.role)
  permissions_ok : permissions = sortedSet (grants.flatMap fun grant => grant.permissions)
  purposes_ok : purposes = sortedSet (grants.map fun grant => grant.purpose)

/-- What `IdentityContext` is built from. -/
structure IdentityFields where
  principal : PrincipalRecord
  roles : List Identifier
  permissions : List Identifier
  purposes : List Identifier
  grants : List GrantBinding
  authenticatedAt : Datetime
  expiresAt : Datetime
  requestId : String
  traceId : String

/-- `IdentityContext(...)`: its fields are normalized, then the flattened sets are compared. -/
def IdentityFields.build (fields : IdentityFields) : Except Error IdentityContext := do
  let requestId ← Identifier.parse "IdentityContext.request_id" fields.requestId
  let traceId ← Identifier.parse "IdentityContext.trace_id" fields.traceId
  if hexpiry : fields.authenticatedAt < fields.expiresAt then
    if hroles : sortedSet fields.roles =
        sortedSet ((GrantBinding.normalize fields.grants).map fun grant => grant.role) then
      if hpermissions : sortedSet fields.permissions =
          sortedSet ((GrantBinding.normalize fields.grants).flatMap fun grant => grant.permissions) then
        if hpurposes : sortedSet fields.purposes =
            sortedSet ((GrantBinding.normalize fields.grants).map fun grant => grant.purpose) then
          pure
            { tenantId := fields.principal.tenantId, issuer := fields.principal.issuer,
              subjectId := fields.principal.subjectId, principalKind := fields.principal.principalKind,
              roles := sortedSet fields.roles, permissions := sortedSet fields.permissions,
              purposes := sortedSet fields.purposes, grants := GrantBinding.normalize fields.grants,
              grantVersion := fields.principal.grantVersion,
              authenticatedAt := fields.authenticatedAt, expiresAt := fields.expiresAt,
              requestId, traceId, version_ok := fields.principal.version_ok, expiry_ok := hexpiry,
              roles_ok := hroles, permissions_ok := hpermissions, purposes_ok := hpurposes }
        else .error (validationError "IdentityContext")
      else .error (validationError "IdentityContext")
    else .error (validationError "IdentityContext")
  else .error (validationError "IdentityContext")

/-- What an identity keeps of what it is built from. -/
theorem IdentityFields.build_ok {fields : IdentityFields} {identity : IdentityContext}
    (h : fields.build = .ok identity) : identity.tenantId = fields.principal.tenantId ∧
      identity.expiresAt = fields.expiresAt ∧
      identity.grants = GrantBinding.normalize fields.grants := by
  unfold IdentityFields.build at h
  obtain ⟨requestId, -, h⟩ := except_bind_ok.mp h
  obtain ⟨traceId, -, h⟩ := except_bind_ok.mp h
  split at h
  · split at h
    · split at h
      · split at h
        · rw [← Except.ok.inj h]
          exact ⟨rfl, rfl, rfl⟩
        · cases h
      · cases h
    · cases h
  · cases h

end Access

end Aegis
