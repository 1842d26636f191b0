/-
  WHAT THE NODES OF THE GRAPH WRITE: findings, node errors, artifacts.

  A record of the state is the JSON dump of a model; the typed values are here.  The payload of an
  artifact is its JSON value with the members of every object in order, since dicts are compared without.
-/
import Mathlib
import Aegis.Remediation.Records

namespace Aegis

namespace Orchestration

open Remediation (Citation)

/-! ## Enumerations -/

inductive Specialist where
  | telemetry | change | runtime | knowledge
deriving DecidableEq, Repr

def Specialist.value : Specialist → String
  | .telemetry => "telemetry"
  | .change => "change"
  | .runtime => "runtime"
  | .knowledge => "knowledge"

inductive AgentRole where
  | coordinator | telemetrySpecialist | changeSpecialist | runtimeSpecialist | knowledgeSpecialist
  | critic | remediationPlanner | verificationAgent
deriving DecidableEq, Repr

def AgentRole.value : AgentRole → String
  | .coordinator => "coordinator"
  | .telemetrySpecialist => "telemetry_specialist"
  | .changeSpecialist => "change_specialist"
  | .runtimeSpecialist => "runtime_specialist"
  | .knowledgeSpecialist => "knowledge_specialist"
  | .critic => "critic"
  | .remediationPlanner => "remediation_planner"
  | .verificationAgent => "verification_agent"

theorem AgentRole.value_inj {a b : AgentRole} (h : a.value = b.value) : a = b := by
  cases a <;> cases b <;> first | rfl | exact absurd h (by decide)

/-! ## Findings -/

/-- `SpecialistFinding`: its citations sorted; an abstaining one claims nothing, and any other has a cause
    and a citation. -/
structure SpecialistFinding where
  findingId : Identifier
  specialist : Specialist
  statement : String
  causeCode : Option Identifier
  confidence : ℚ
  citations : List Citation
  abstained : Bool
  reason : Option String
  statement_ok : 1 ≤ statement.length ∧ statement.length ≤ 1000
  confidence_ok : 0 ≤ confidence ∧ confidence ≤ 1
  citations_ok : citations.length ≤ 16 ∧ citations.Pairwise fun a b => a.evidenceId.val ≤ b.evidenceId.val
  abstained_ok : abstained = true → causeCode = none ∧ citations = [] ∧ confidence = 0
  claims_ok : abstained = false → causeCode ≠ none ∧ citations ≠ []
  reason_ok : ∀ r ∈ reason, r.length ≤ 256

structure NodeError where
  node : Identifier
  code : Identifier
deriving DecidableEq

/-! ## Artifacts -/

/-- What the digest of an artifact is taken of. -/
structure ArtifactContent where
  tenantId : Identifier
  incidentId : Identifier
  runId : Identifier
  taskId : Option Identifier
  ordinal : Nat
  producerRole : AgentRole
  payload : Json
  provenance : List (Identifier × Digest)
  ordinal_ok : 1 ≤ ordinal ∧ ordinal ≤ 1000
  payload_ok : sortKeys payload = payload
  provenance_ok : provenance.length ≤ 16

/-- The JSON dump of an `ArtifactProvenance`. -/
def provenanceDump (p : Identifier × Digest) : Json :=
  .obj [("artifact_digest", .str p.2.val), ("artifact_id", .str p.1.val)]

/-- The document of `artifact_digest`. -/
def ArtifactContent.document (c : ArtifactContent) : Json :=
  .obj [("incident_id", .str c.incidentId.val), ("ordinal", .int c.ordinal), ("payload", c.payload),
    ("producer_role", .str c.producerRole.value), ("provenance", .arr (c.provenance.map provenanceDump)),
    ("run_id", .str c.runId.val), ("schema_version", .int 1),
    ("task_id", c.taskId.elim .null fun t => .str t.val), ("tenant_id", .str c.tenantId.val)]

/-- A `GovernanceArtifact` whose digest is that of its content. -/
structure GovernanceArtifact (sha : Sha256) where
  artifactId : Identifier
  content : ArtifactContent
  canonicalDigest : Digest
  digest_ok : canonicalDigest = sha.hexdigest (canonicalJson content.document)

end Orchestration

end Aegis
