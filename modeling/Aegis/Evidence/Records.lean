/-
  EVIDENCE: queries, the pages a connector answers with, normalized items, bundles, the view of a query.

  The digest of a record is that of its JSON dump, so every field of the source is here.  A bundle is
  built in the order of its items and validated against it.
-/
import Mathlib
import Aegis.Domain

namespace Aegis

namespace Evidence

/-! ## Enumerations -/

inductive EvidenceSourceKind where
  | dynatrace | github | kubernetes | runbook
deriving DecidableEq, Repr

def EvidenceSourceKind.value : EvidenceSourceKind → String
  | .dynatrace => "dynatrace"
  | .github => "github"
  | .kubernetes => "kubernetes"
  | .runbook => "runbook"

inductive SourceTrust where
  | externalUntrusted | platformControlPlane | operatorApproved
deriving DecidableEq, Repr

def SourceTrust.value : SourceTrust → String
  | .externalUntrusted => "external_untrusted"
  | .platformControlPlane => "platform_control_plane"
  | .operatorApproved => "operator_approved"

inductive DataClassification where
  | «public» | internal | confidential | restricted
deriving DecidableEq, Repr

def DataClassification.value : DataClassification → String
  | .public => "public"
  | .internal => "internal"
  | .confidential => "confidential"
  | .restricted => "restricted"

inductive EvidenceDisposition where
  | accepted | redacted | quarantined | duplicate
deriving DecidableEq, Repr

def EvidenceDisposition.value : EvidenceDisposition → String
  | .accepted => "accepted"
  | .redacted => "redacted"
  | .quarantined => "quarantined"
  | .duplicate => "duplicate"

inductive QueryStatus where
  | requested | running | completed | failed | cancelled | reconciliationRequired | stale
deriving DecidableEq, Repr

def QueryStatus.value : QueryStatus → String
  | .requested => "requested"
  | .running => "running"
  | .completed => "completed"
  | .failed => "failed"
  | .cancelled => "cancelled"
  | .reconciliationRequired => "reconciliation_required"
  | .stale => "stale"

/-- `QueryStatus(value)`. -/
def QueryStatus.parse (value : String) : Option QueryStatus :=
  [QueryStatus.requested, .running, .completed, .failed, .cancelled, .reconciliationRequired, .stale].find?
    fun status => status.value = value

/-- The statuses that nothing follows. -/
def terminal : List QueryStatus := [.cancelled, .completed, .failed, .reconciliationRequired, .stale]

inductive QuarantineReason where
  | activeContent | archiveBounds | classification | contentType | malformed | promptInjection
  | scannerRejected | secret | size
deriving DecidableEq, Repr

def QuarantineReason.value : QuarantineReason → String
  | .activeContent => "active_content"
  | .archiveBounds => "archive_bounds"
  | .classification => "classification"
  | .contentType => "content_type"
  | .malformed => "malformed"
  | .promptInjection => "prompt_injection"
  | .scannerRejected => "scanner_rejected"
  | .secret => "secret"
  | .size => "size"

/-! ## Queries -/

/-- `canonical_digest`: the digest of the canonical text of a JSON value. -/
def canonicalDigest (sha : Sha256) (value : Json) : Digest := sha.hexdigest (canonicalJson value)

def jsonInt (n : Nat) : Json := .int n

/-- An optional field in a dump. -/
def optional {α : Type} (dump : α → Json) : Option α → Json
  | none => .null
  | some a => dump a

def textOf (i : Identifier) : Json := .str i.val

/-- `EvidenceBounds`; the timeout is read by the connectors only. -/
structure EvidenceBounds where
  maximumPages : Nat
  maximumRecords : Nat
  maximumPageBytes : Nat
  maximumTotalBytes : Nat
  requestTimeoutSeconds : FloatText
  pages_ok : 1 ≤ maximumPages ∧ maximumPages ≤ 100
  records_ok : 1 ≤ maximumRecords ∧ maximumRecords ≤ 10000
  covers : maximumPageBytes ≤ maximumTotalBytes

def EvidenceBounds.modelDump (b : EvidenceBounds) : Json :=
  .obj [("maximum_pages", jsonInt b.maximumPages), ("maximum_records", jsonInt b.maximumRecords),
    ("maximum_page_bytes", jsonInt b.maximumPageBytes),
    ("maximum_total_bytes", jsonInt b.maximumTotalBytes),
    ("request_timeout_seconds", .float b.requestTimeoutSeconds)]

structure EvidenceSource where
  tenantId : Identifier
  sourceId : Identifier
  kind : EvidenceSourceKind
  trust : SourceTrust
  classification : DataClassification
  region : Identifier
  credentialRef : Option Identifier
  credentialVersion : Option Nat
  policyRevision : Nat
  allowedResources : List String
  enabled : Bool
  credential_ok : credentialRef.isNone = credentialVersion.isNone

def EvidenceSource.modelDump (x : EvidenceSource) : Json :=
  .obj [("schema_version", .int 1), ("tenant_id", textOf x.tenantId), ("source_id", textOf x.sourceId),
    ("kind", .str x.kind.value), ("trust", .str x.trust.value),
    ("classification", .str x.classification.value), ("region", textOf x.region),
    ("credential_ref", optional textOf x.credentialRef),
    ("credential_version", optional jsonInt x.credentialVersion),
    ("policy_revision", jsonInt x.policyRevision),
    ("allowed_resources", .arr (x.allowedResources.map Json.str)), ("enabled", .bool x.enabled)]

/-- `EvidenceSource.digest`. -/
def EvidenceSource.digest (sha : Sha256) (x : EvidenceSource) : Digest := canonicalDigest sha x.modelDump

structure EvidenceTimeRange where
  start : Datetime
  «end» : Datetime
  ordered : start < «end»

/-- `EvidenceQuery`.  Its source is one of its tenant and allows its resource. -/
structure EvidenceQuery where
  queryId : Identifier
  tenantId : Identifier
  incidentId : Identifier
  runId : Identifier
  source : EvidenceSource
  window : EvidenceTimeRange
  resource : String
  parameters : Fields
  bounds : EvidenceBounds
  createdAt : Datetime
  source_ok : source.tenantId = tenantId
  resource_ok : resource ∈ source.allowedResources

def EvidenceQuery.modelDump (q : EvidenceQuery) : Json :=
  .obj [("schema_version", .int 1), ("query_id", textOf q.queryId), ("tenant_id", textOf q.tenantId),
    ("incident_id", textOf q.incidentId), ("run_id", textOf q.runId), ("source", q.source.modelDump),
    ("window", .obj [("start", .str q.window.start.jsonText), ("end", .str q.window.end.jsonText)]),
    ("resource", .str q.resource), ("parameters", q.parameters.toJson), ("bounds", q.bounds.modelDump),
    ("created_at", .str q.createdAt.jsonText)]

/-- `EvidenceQuery.digest`. -/
def EvidenceQuery.digest (sha : Sha256) (q : EvidenceQuery) : Digest := canonicalDigest sha q.modelDump

/-- A query's place in the maps of a store: its tenant and its identifier. -/
abbrev Key := String × String

def EvidenceQuery.key (q : EvidenceQuery) : Key := (q.tenantId.val, q.queryId.val)

structure EvidenceCursor where
  tenantId : Identifier
  incidentId : Identifier
  queryId : Identifier
  sourceId : Identifier
  pageNumber : Int
  cursorRef : Identifier
  cursorDigest : Digest
  createdAt : Datetime
  expiresAt : Datetime
  page_ok : 1 ≤ pageNumber ∧ pageNumber ≤ 100
  expiry_ok : createdAt < expiresAt

/-! ## Pages -/

/-- `ConnectorRecord`.  Its payload is bytes. -/
structure ConnectorRecord where
  recordId : Identifier
  locator : String
  observedAt : Datetime
  contentType : String
  payload : List UInt8
  sourceVersion : Option String
  etag : Option String

/-- `ConnectorPage`. -/
structure ConnectorPage where
  queryId : Identifier
  sourceId : Identifier
  pageNumber : Nat
  records : List ConnectorRecord
  nextCursor : Option String
  responseBytes : Nat
  rateLimitRemaining : Option Nat
  retrievedAt : Datetime
  cursor_ok : ∀ cursor, nextCursor = some cursor → cursor.toList.length ≤ 4096
  bytes_ok : (records.map fun r => r.payload.length).sum ≤ responseBytes

/-! ## Items -/

structure ScannerFinding where
  scanner : Identifier
  ruleId : Identifier
  severity : String
  count : Nat
deriving DecidableEq

def ScannerFinding.modelDump (f : ScannerFinding) : Json :=
  .obj [("scanner", textOf f.scanner), ("rule_id", textOf f.ruleId), ("severity", .str f.severity),
    ("count", jsonInt f.count)]

structure EvidenceProvenance where
  tenantId : Identifier
  incidentId : Identifier
  runId : Identifier
  sourceId : Identifier
  sourceKind : EvidenceSourceKind
  sourceTrust : SourceTrust
  sourceDigest : Digest
  queryId : Identifier
  queryDigest : Digest
  pageNumber : Nat
  locator : String
  observedAt : Datetime
  retrievedAt : Datetime
  credentialVersion : Option Nat
  policyRevision : Nat
  classification : DataClassification
  retentionRef : Identifier
  rawContentHash : Digest

def EvidenceProvenance.modelDump (p : EvidenceProvenance) : Json :=
  .obj [("schema_version", .int 1), ("tenant_id", textOf p.tenantId),
    ("incident_id", textOf p.incidentId), ("run_id", textOf p.runId), ("source_id", textOf p.sourceId),
    ("source_kind", .str p.sourceKind.value), ("source_trust", .str p.sourceTrust.value),
    ("source_digest", .str p.sourceDigest.val), ("query_id", textOf p.queryId),
    ("query_digest", .str p.queryDigest.val), ("page_number", jsonInt p.pageNumber),
    ("locator", .str p.locator), ("observed_at", .str p.observedAt.jsonText),
    ("retrieved_at", .str p.retrievedAt.jsonText),
    ("credential_version", optional jsonInt p.credentialVersion),
    ("policy_revision", jsonInt p.policyRevision), ("classification", .str p.classification.value),
    ("retention_ref", textOf p.retentionRef), ("raw_content_hash", .str p.rawContentHash.val)]

/-- `EvidenceProvenance.digest`. -/
def EvidenceProvenance.digest (sha : Sha256) (p : EvidenceProvenance) : Digest :=
  canonicalDigest sha p.modelDump

/-- `NormalizedEvidence`.  Exactly the quarantined items have a reason, and exactly the duplicates a
    target. -/
structure NormalizedEvidence where
  evidenceId : Identifier
  tenantId : Identifier
  incidentId : Identifier
  kind : EvidenceSourceKind
  summary : String
  facts : Fields
  canonicalText : String
  contentHash : Digest
  provenance : EvidenceProvenance
  disposition : EvidenceDisposition
  redactionCount : Nat
  scannerFindings : List ScannerFinding
  quarantineReason : Option QuarantineReason
  duplicateOf : Option Identifier
  quarantine_ok : disposition = .quarantined ↔ quarantineReason ≠ none
  duplicate_ok : disposition = .duplicate ↔ duplicateOf ≠ none

def NormalizedEvidence.modelDump (x : NormalizedEvidence) : Json :=
  .obj [("schema_version", .int 1), ("evidence_id", textOf x.evidenceId),
    ("tenant_id", textOf x.tenantId), ("incident_id", textOf x.incidentId), ("kind", .str x.kind.value),
    ("summary", .str x.summary), ("facts", x.facts.toJson), ("canonical_text", .str x.canonicalText),
    ("content_hash", .str x.contentHash.val), ("provenance", x.provenance.modelDump),
    ("disposition", .str x.disposition.value), ("redaction_count", jsonInt x.redactionCount),
    ("scanner_findings", .arr (x.scannerFindings.map ScannerFinding.modelDump)),
    ("quarantine_reason", optional (fun r => .str r.value) x.quarantineReason),
    ("duplicate_of", optional textOf x.duplicateOf)]

/-- `NormalizedEvidence.digest`. -/
def NormalizedEvidence.digest (sha : Sha256) (x : NormalizedEvidence) : Digest :=
  canonicalDigest sha x.modelDump

/-- `disposition in {ACCEPTED, REDACTED}`. -/
def NormalizedEvidence.usable (x : NormalizedEvidence) : Bool :=
  decide (x.disposition ∈ [EvidenceDisposition.accepted, .redacted])

/-- `sorted(evidence, key=lambda item: item.evidence_id)`. -/
def byEvidenceId (evidence : List NormalizedEvidence) : List NormalizedEvidence :=
  evidence.insertionSort fun a b => a.evidenceId.val ≤ b.evidenceId.val

/-! ## Bundles -/

structure EvidenceCitation where
  evidenceId : Identifier
  locator : String
  contentHash : Digest
  provenanceDigest : Digest
  sourceId : Identifier
  queryId : Identifier
  pageNumber : Nat
deriving DecidableEq

def EvidenceCitation.modelDump (c : EvidenceCitation) : Json :=
  .obj [("evidence_id", textOf c.evidenceId), ("locator", .str c.locator),
    ("content_hash", .str c.contentHash.val), ("provenance_digest", .str c.provenanceDigest.val),
    ("source_id", textOf c.sourceId), ("query_id", textOf c.queryId),
    ("page_number", jsonInt c.pageNumber)]

structure EvidenceBundle where
  bundleId : Identifier
  tenantId : Identifier
  incidentId : Identifier
  runId : Identifier
  queryIds : List Identifier
  evidence : List NormalizedEvidence
  citations : List EvidenceCitation
  sourceKinds : List EvidenceSourceKind
  createdAt : Datetime
  bundleDigest : Digest

/-- The dump that the digest of a bundle is made of: all of it but the digest. -/
def bundleMaterial (bundleId tenantId incidentId runId : Identifier) (queryIds : List Identifier)
    (evidence : List NormalizedEvidence) (citations : List EvidenceCitation)
    (sourceKinds : List EvidenceSourceKind) (createdAt : Datetime) : Json :=
  .obj [("schema_version", .int 1), ("bundle_id", textOf bundleId), ("tenant_id", textOf tenantId),
    ("incident_id", textOf incidentId), ("run_id", textOf runId),
    ("query_ids", .arr (queryIds.map textOf)),
    ("evidence", .arr (evidence.map NormalizedEvidence.modelDump)),
    ("citations", .arr (citations.map EvidenceCitation.modelDump)),
    ("source_kinds", .arr (sourceKinds.map fun k => .str k.value)),
    ("created_at", .str createdAt.jsonText)]

/-- The citation of an item. -/
def cite (sha : Sha256) (x : NormalizedEvidence) : EvidenceCitation where
  evidenceId := x.evidenceId
  locator := x.provenance.locator
  contentHash := x.contentHash
  provenanceDigest := x.provenance.digest sha
  sourceId := x.provenance.sourceId
  queryId := x.provenance.queryId
  pageNumber := x.provenance.pageNumber

/-- The last usable item of this identifier, as a dict of them has it. -/
def acceptedItem (evidence : List NormalizedEvidence) (evidenceId : Identifier) :
    Option NormalizedEvidence :=
  evidence.reverse.find? fun x => x.usable && x.evidenceId == evidenceId

/-- A citation is that of the accepted item it names. -/
def citationBound (sha : Sha256) (evidence : List NormalizedEvidence) (c : EvidenceCitation) : Bool :=
  match acceptedItem evidence c.evidenceId with
  | none => false
  | some x => decide (c.locator = x.provenance.locator ∧ c.contentHash = x.contentHash ∧
      c.provenanceDigest = x.provenance.digest sha)

/-- `build_bundle` for one query: the items in order, the citations of the usable ones, and the validator
    of the bundle. -/
def buildBundle (sha : Sha256) (bundleId tenantId incidentId runId queryId : Identifier)
    (evidence : List NormalizedEvidence) (createdAt : Datetime) : Except Error EvidenceBundle :=
  let ordered := byEvidenceId evidence
  let citations := (ordered.filter NormalizedEvidence.usable).map (cite sha)
  let sourceKinds := [EvidenceSourceKind.dynatrace, .github, .kubernetes, .runbook].filter
    fun kind => ordered.any fun x => x.kind = kind
  if 10000 < ordered.length then .error (validationError "EvidenceBundle.evidence")
  else if citations.all (citationBound sha ordered) = false then .error (validationError "EvidenceBundle")
  else .ok { bundleId, tenantId, incidentId, runId, queryIds := [queryId], evidence := ordered, citations,
             sourceKinds, createdAt,
             bundleDigest := canonicalDigest sha (bundleMaterial bundleId tenantId incidentId runId
               [queryId] ordered citations sourceKinds createdAt) }

/-! ## Views -/

/-- `EvidenceQueryView`.  Only its first one is validated: later ones are copies with updates. -/
structure EvidenceQueryView where
  queryId : Identifier
  incidentId : Identifier
  sourceKind : EvidenceSourceKind
  status : QueryStatus
  pageCount : Nat
  recordCount : Nat
  acceptedCount : Nat
  quarantinedCount : Nat
  failureCode : Option String
  cursorAvailable : Bool
  reconciliationRequired : Bool
  updatedAt : Datetime

end Evidence

end Aegis
