/-
  THE RECORDS OF THE SANDBOX: specs, requests, results, facts, the projection.

  A spec and a request carry the digest of their own content, and a request repeats what its spec says of
  tenant, run, task and approval; their constructors refuse anything else.  So these are no fields here
  but FUNCTIONS of the content (`SandboxSpec.specDigest`, `SandboxExecutionRequest.requestDigest`, ...),
  and a request that does not match its spec cannot be built.

  Two requests of one execution that differ in the attempt have different documents, so their digests
  differ (`requestText_attempt`); the rest of a request may be the same.
-/
import Mathlib
import Aegis.Domain
import Aegis.Remediation.Records

namespace Aegis

namespace Sandbox

/-- `canonical_digest`: the digest of the canonical text of a document. -/
def canonicalDigest (sha : Sha256) (document : Json) : Digest :=
  sha.hexdigest (canonicalJson document)

/-! ## Enumerations -/

inductive SandboxPurpose where
  | analysis | testing | patchPreparation
deriving DecidableEq, Repr

def SandboxPurpose.value : SandboxPurpose → String
  | .analysis => "analysis"
  | .testing => "testing"
  | .patchPreparation => "patch_preparation"

inductive NetworkMode where
  | none | exactDestinations
deriving DecidableEq, Repr

def NetworkMode.value : NetworkMode → String
  | .none => "none"
  | .exactDestinations => "exact_destinations"

inductive BackendObservationState where
  | absent | provisioning | running | terminal | conflict | unknown
deriving DecidableEq, Repr

inductive SandboxStatus where
  | requested | policyApproved | claimed | provisioning | running | capturing | completed | failed
  | timedOut | oomKilled | violation | cancelled | attested | cleaning | cleaned | quarantined
  | reconciling
deriving DecidableEq, Repr

/-! ## Specs -/

structure ContentInput where
  tenantId : Identifier
  logicalPath : String
  contentHash : Digest
  sizeBytes : Nat
  mediaType : String
  objectRef : Identifier

def ContentInput.modelDump (i : ContentInput) : Json :=
  .obj [("tenant_id", .str i.tenantId.val), ("logical_path", .str i.logicalPath),
    ("content_hash", .str i.contentHash.val), ("size_bytes", .int i.sizeBytes),
    ("media_type", .str i.mediaType), ("object_ref", .str i.objectRef.val)]

structure MountReference where
  sourceRef : Identifier
  targetPath : String

def MountReference.modelDump (m : MountReference) : Json :=
  .obj [("source_ref", .str m.sourceRef.val), ("target_path", .str m.targetPath),
    ("read_only", .bool true)]

structure SecretReference where
  reference : Identifier
  version : Nat
  envName : String

def SecretReference.modelDump (s : SecretReference) : Json :=
  .obj [("reference", .str s.reference.val), ("version", .int s.version),
    ("env_name", .str s.envName)]

structure EnvironmentVariable where
  name : String
  value : String

def EnvironmentVariable.modelDump (e : EnvironmentVariable) : Json :=
  .obj [("name", .str e.name), ("value", .str e.value)]

/-- `EgressDestination`; its scheme and port are constants. -/
structure EgressDestination where
  host : String
deriving DecidableEq

def EgressDestination.modelDump (d : EgressDestination) : Json :=
  .obj [("scheme", .str "https"), ("host", .str d.host), ("port", .int 443)]

structure SandboxNetworkPolicy where
  mode : NetworkMode
  destinations : List EgressDestination
  enforcement : String

def SandboxNetworkPolicy.modelDump (n : SandboxNetworkPolicy) : Json :=
  .obj [("mode", .str n.mode.value), ("destinations", .arr (n.destinations.map (·.modelDump))),
    ("enforcement", .str n.enforcement)]

structure SandboxResources where
  cpuMillicores : Nat
  memoryMib : Nat
  pidLimit : Nat
  ephemeralStorageMib : Nat
  timeoutSeconds : Nat
  outputBytes : Nat
  outputFiles : Nat
  outputFileBytes : Nat

def SandboxResources.modelDump (r : SandboxResources) : Json :=
  .obj [("cpu_millicores", .int r.cpuMillicores), ("memory_mib", .int r.memoryMib),
    ("pid_limit", .int r.pidLimit), ("ephemeral_storage_mib", .int r.ephemeralStorageMib),
    ("timeout_seconds", .int r.timeoutSeconds), ("output_bytes", .int r.outputBytes),
    ("output_files", .int r.outputFiles), ("output_file_bytes", .int r.outputFileBytes)]

/-- `SandboxSecurityContext`; its other fields are constants. -/
structure SandboxSecurityContext where
  runAsUser : Nat
  runAsGroup : Nat
  fsGroup : Nat
  apparmorProfile : Identifier

def SandboxSecurityContext.modelDump (s : SandboxSecurityContext) : Json :=
  .obj [("run_as_user", .int s.runAsUser), ("run_as_group", .int s.runAsGroup),
    ("fs_group", .int s.fsGroup), ("run_as_non_root", .bool true),
    ("read_only_root_filesystem", .bool true), ("allow_privilege_escalation", .bool false),
    ("privileged", .bool false), ("capabilities_drop", .arr [.str "ALL"]),
    ("seccomp_profile", .str "RuntimeDefault"), ("apparmor_profile", .str s.apparmorProfile.val),
    ("no_new_privileges", .bool true), ("host_network", .bool false), ("host_pid", .bool false),
    ("host_ipc", .bool false), ("automount_service_account_token", .bool false)]

structure OutputExpectation where
  logicalPath : String
  mediaTypes : List String
  required : Bool

def OutputExpectation.modelDump (o : OutputExpectation) : Json :=
  .obj [("logical_path", .str o.logicalPath), ("media_types", .arr (o.mediaTypes.map .str)),
    ("required", .bool o.required)]

/-- `RetryAndCleanup`; its other fields are constants. -/
structure RetryAndCleanup where
  maximumAttempts : Nat
  cleanupTimeoutSeconds : Nat
  retainFailedSeconds : Nat

def RetryAndCleanup.modelDump (r : RetryAndCleanup) : Json :=
  .obj [("retry_owner", .str "temporal"), ("maximum_attempts", .int r.maximumAttempts),
    ("observe_before_create", .bool true), ("stale_attempt_fencing", .bool true),
    ("cleanup_required", .bool true), ("cleanup_timeout_seconds", .int r.cleanupTimeoutSeconds),
    ("retain_failed_seconds", .int r.retainFailedSeconds)]

/-- `SandboxApprovalBinding`. -/
structure SandboxApprovalBinding where
  tenantId : Identifier
  runId : Identifier
  taskId : Identifier
  remediationPlanId : Identifier
  remediationActionId : Identifier
  remediationPlanDigest : Digest
  remediationActionDigest : Digest
  approvalId : Identifier
  approvalDigest : Digest
  approvalPolicyDigest : Digest
  approvalExpiresAt : Datetime
deriving DecidableEq

def SandboxApprovalBinding.modelDump (a : SandboxApprovalBinding) : Json :=
  .obj [("tenant_id", .str a.tenantId.val), ("run_id", .str a.runId.val),
    ("task_id", .str a.taskId.val), ("remediation_plan_id", .str a.remediationPlanId.val),
    ("remediation_action_id", .str a.remediationActionId.val),
    ("remediation_plan_digest", .str a.remediationPlanDigest.val),
    ("remediation_action_digest", .str a.remediationActionDigest.val),
    ("approval_id", .str a.approvalId.val), ("approval_digest", .str a.approvalDigest.val),
    ("approval_policy_digest", .str a.approvalPolicyDigest.val),
    ("approval_expires_at", .str a.approvalExpiresAt.jsonText)]

/-- `SandboxSpec`.  Its tenant, run and task are those of its approval. -/
structure SandboxSpec where
  specVersion : Identifier
  purpose : SandboxPurpose
  risk : RiskLevel
  approval : SandboxApprovalBinding
  image : String
  argv : List String
  inputs : List ContentInput
  mounts : List MountReference
  environment : List EnvironmentVariable
  secrets : List SecretReference
  network : SandboxNetworkPolicy
  resources : SandboxResources
  security : SandboxSecurityContext
  requiredRuntimeClass : Identifier
  requiredAdmissionPolicies : List Identifier
  expectedOutputs : List OutputExpectation
  retry : RetryAndCleanup
  argv_ok : argv ≠ []

def SandboxSpec.tenantId (s : SandboxSpec) : Identifier := s.approval.tenantId

/-- The members of the document of a spec, without its digest. -/
def SandboxSpec.members (s : SandboxSpec) : List (String × Json) :=
  [("schema_version", .int 1), ("spec_version", .str s.specVersion.val),
    ("tenant_id", .str s.approval.tenantId.val), ("run_id", .str s.approval.runId.val),
    ("task_id", .str s.approval.taskId.val), ("purpose", .str s.purpose.value),
    ("risk", .str (Remediation.riskValue s.risk)), ("approval", s.approval.modelDump),
    ("image", .str s.image), ("argv", .arr (s.argv.map .str)),
    ("working_directory", .str "workspace"), ("inputs", .arr (s.inputs.map (·.modelDump))),
    ("mounts", .arr (s.mounts.map (·.modelDump))),
    ("environment", .arr (s.environment.map (·.modelDump))),
    ("secrets", .arr (s.secrets.map (·.modelDump))), ("network", s.network.modelDump),
    ("resources", s.resources.modelDump), ("security", s.security.modelDump),
    ("required_runtime_class", .str s.requiredRuntimeClass.val),
    ("required_admission_policies", .arr (s.requiredAdmissionPolicies.map fun p => .str p.val)),
    ("expected_outputs", .arr (s.expectedOutputs.map (·.modelDump))), ("retry", s.retry.modelDump)]

def SandboxSpec.specDigest (sha : Sha256) (s : SandboxSpec) : Digest :=
  canonicalDigest sha (.obj s.members)

/-- `spec.model_dump(mode="json")`. -/
def SandboxSpec.modelDump (sha : Sha256) (s : SandboxSpec) : Json :=
  .obj (s.members ++ [("spec_digest", .str (s.specDigest sha).val)])

/-! ## Requests and results -/

/-- `SandboxExecutionRequest`.  Tenant, run, task, spec digest and approval digest are those of the
    spec. -/
structure SandboxExecutionRequest where
  executionId : Identifier
  spec : SandboxSpec
  policyDigest : Digest
  idempotencyKey : Identifier
  attempt : Nat
  fenceToken : Identifier
  requestedAt : Datetime
  attempt_ok : 1 ≤ attempt ∧ attempt ≤ 16

namespace SandboxExecutionRequest

def tenantId (r : SandboxExecutionRequest) : Identifier := r.spec.approval.tenantId

def runId (r : SandboxExecutionRequest) : Identifier := r.spec.approval.runId

def taskId (r : SandboxExecutionRequest) : Identifier := r.spec.approval.taskId

def approvalDigest (r : SandboxExecutionRequest) : Digest := r.spec.approval.approvalDigest

/-- The request without its digest. -/
def modelDump (sha : Sha256) (r : SandboxExecutionRequest) : Json :=
  .obj [("schema_version", .int 1), ("execution_id", .str r.executionId.val),
    ("tenant_id", .str r.tenantId.val), ("run_id", .str r.runId.val),
    ("task_id", .str r.taskId.val), ("spec", r.spec.modelDump sha),
    ("spec_digest", .str (r.spec.specDigest sha).val), ("policy_digest", .str r.policyDigest.val),
    ("approval_digest", .str r.approvalDigest.val),
    ("idempotency_key", .str r.idempotencyKey.val), ("attempt", .int r.attempt),
    ("fence_token", .str r.fenceToken.val), ("requested_at", .str r.requestedAt.jsonText)]

/-- What the digest of a request is taken of. -/
def requestText (sha : Sha256) (r : SandboxExecutionRequest) : String := canonicalJson (r.modelDump sha)

def requestDigest (sha : Sha256) (r : SandboxExecutionRequest) : Digest :=
  canonicalDigest sha (r.modelDump sha)

def key (r : SandboxExecutionRequest) : String × String := (r.tenantId.val, r.executionId.val)

/-- The text of a request determines its attempt. -/
theorem requestText_attempt {sha : Sha256} {r r' : SandboxExecutionRequest}
    (h : r.requestText sha = r'.requestText sha) : r.attempt = r'.attempt := by
  have hsame := canonicalJson_inj.mp h
  have hnodup : (["schema_version", "execution_id", "tenant_id", "run_id", "task_id", "spec",
      "spec_digest", "policy_digest", "approval_digest", "idempotency_key", "attempt", "fence_token",
      "requested_at"] : List String).Nodup := by decide
  have hfield := hsame.field (k := "attempt") hnodup (v := .int r.attempt) (w := .int r'.attempt)
    (by simp) (by simp)
  have hsorted : Json.int (r.attempt : Int) = Json.int (r'.attempt : Int) := by
    have : sortKeys (.int (r.attempt : Int)) = sortKeys (.int (r'.attempt : Int)) := hfield
    simpa only [sortKeys] using this
  exact Int.ofNat.inj (Json.int.inj hsorted)

end SandboxExecutionRequest

/-- What the claim store reads of `SandboxResult`. -/
structure SandboxResult where
  tenantId : Identifier
  executionId : Identifier
  attempt : Nat
  fenceToken : Identifier
  resultDigest : Digest

def SandboxResult.key (r : SandboxResult) : String × String := (r.tenantId.val, r.executionId.val)

/-! ## A case -/

def sampleSpec : SandboxSpec where
  specVersion := ⟨"1", computed⟩
  purpose := .analysis
  risk := .low
  approval := {
    tenantId := ⟨"t", computed⟩, runId := ⟨"r", computed⟩, taskId := ⟨"k", computed⟩,
    remediationPlanId := ⟨"p", computed⟩, remediationActionId := ⟨"a", computed⟩,
    remediationPlanDigest := zeroHash, remediationActionDigest := zeroHash,
    approvalId := ⟨"g", computed⟩, approvalDigest := zeroHash, approvalPolicyDigest := zeroHash,
    approvalExpiresAt := ⟨100, 0⟩ }
  image := "i"
  argv := ["run"]
  inputs := []
  mounts := []
  environment := []
  secrets := []
  network := ⟨.none, [], "kubernetes"⟩
  resources := ⟨100, 64, 16, 64, 60, 1024, 1, 1024⟩
  security := ⟨1000, 1000, 1000, ⟨"x", computed⟩⟩
  requiredRuntimeClass := ⟨"c", computed⟩
  requiredAdmissionPolicies := []
  expectedOutputs := []
  retry := ⟨3, 60, 0⟩
  argv_ok := by decide

/-- An attempt of one execution. -/
def sampleRequest (attempt : Nat)
    (h : 1 ≤ attempt ∧ attempt ≤ 16 := by first | exact first_attempt | exact second_attempt) :
    SandboxExecutionRequest where
  executionId := ⟨"e", computed⟩
  spec := sampleSpec
  policyDigest := zeroHash
  idempotencyKey := ⟨"i", computed⟩
  attempt
  fenceToken := ⟨"f", computed⟩
  requestedAt := ⟨0, 0⟩
  attempt_ok := h

end Sandbox

end Aegis
