/-
  THE RECORDS OF DURABLE MEMORY: what a memory is made from, its facts and its projection.

  A memory is a RECORD, which never changes, and a list of FACTS.  `reduceMemory` folds one fact onto
  the projection; what a fact does to the lifecycle is `Progress.advance`.  Legal holds are named by
  reference but the projection keeps only HOW MANY there are, between 0 and 16.

  A record also carries what retrieval reads (access list, classification, scores); no function here
  does, so it is left out and the digest of the whole record is a field.
-/
import Mathlib
import Aegis.Domain

namespace Aegis

namespace Memory

/-! ## Enumerations -/

inductive MemoryTier where
  | working | episodic | semantic
deriving DecidableEq, Repr

def MemoryTier.value : MemoryTier → String
  | .working => "working"
  | .episodic => "episodic"
  | .semantic => "semantic"

inductive MemoryStatus where
  | candidate | accepted | rejected | active | superseded | tombstoned | erased
deriving DecidableEq, Repr

inductive MemoryFactType where
  | candidateProposed | candidateAccepted | candidateRejected | scanRequested | scanCompleted
  | chunkRequested | chunkCompleted | embedRequested | embedCompleted | indexRequested
  | indexCompleted | retrieveRequested | retrieveCompleted | contextBuilt | compactRequested
  | compactCompleted | summaryAccepted | summaryRejected | feedbackRecorded | superseded
  | tombstoned | retentionExpired | legalHoldApplied | legalHoldReleased | deleteRequested
  | derivedPurged | cryptoErased | rebuildRequested | rebuildCompleted
deriving DecidableEq, Repr

def MemoryFactType.value : MemoryFactType → String
  | .candidateProposed => "memory.candidate_proposed"
  | .candidateAccepted => "memory.candidate_accepted"
  | .candidateRejected => "memory.candidate_rejected"
  | .scanRequested => "memory.scan_requested"
  | .scanCompleted => "memory.scan_completed"
  | .chunkRequested => "memory.chunk_requested"
  | .chunkCompleted => "memory.chunk_completed"
  | .embedRequested => "memory.embed_requested"
  | .embedCompleted => "memory.embed_completed"
  | .indexRequested => "memory.index_requested"
  | .indexCompleted => "memory.index_completed"
  | .retrieveRequested => "memory.retrieve_requested"
  | .retrieveCompleted => "memory.retrieve_completed"
  | .contextBuilt => "memory.context_built"
  | .compactRequested => "memory.compact_requested"
  | .compactCompleted => "memory.compact_completed"
  | .summaryAccepted => "memory.summary_accepted"
  | .summaryRejected => "memory.summary_rejected"
  | .feedbackRecorded => "memory.feedback_recorded"
  | .superseded => "memory.superseded"
  | .tombstoned => "memory.tombstoned"
  | .retentionExpired => "memory.retention_expired"
  | .legalHoldApplied => "memory.legal_hold_applied"
  | .legalHoldReleased => "memory.legal_hold_released"
  | .deleteRequested => "memory.delete_requested"
  | .derivedPurged => "memory.derived_purged"
  | .cryptoErased => "memory.crypto_erased"
  | .rebuildRequested => "memory.rebuild_requested"
  | .rebuildCompleted => "memory.rebuild_completed"

def MemoryFactType.all : List MemoryFactType :=
  [.candidateProposed, .candidateAccepted, .candidateRejected, .scanRequested, .scanCompleted,
   .chunkRequested, .chunkCompleted, .embedRequested, .embedCompleted, .indexRequested,
   .indexCompleted, .retrieveRequested, .retrieveCompleted, .contextBuilt, .compactRequested,
   .compactCompleted, .summaryAccepted, .summaryRejected, .feedbackRecorded, .superseded,
   .tombstoned, .retentionExpired, .legalHoldApplied, .legalHoldReleased, .deleteRequested,
   .derivedPurged, .cryptoErased, .rebuildRequested, .rebuildCompleted]

theorem MemoryFactType.value_injective : Function.Injective MemoryFactType.value := by
  have hall : ∀ t : MemoryFactType, t ∈ MemoryFactType.all := by
    intro t
    cases t <;> decide
  have hnodup : (MemoryFactType.all.map MemoryFactType.value).Nodup := by decide +kernel
  intro a b h
  exact List.inj_on_of_nodup_map hnodup (hall a) (hall b) h

inductive SourceTrust where
  | externalUntrusted | platformControlPlane | operatorApproved
deriving DecidableEq, Repr

def SourceTrust.value : SourceTrust → String
  | .externalUntrusted => "external_untrusted"
  | .platformControlPlane => "platform_control_plane"
  | .operatorApproved => "operator_approved"

inductive EvidenceDisposition where
  | accepted | redacted | quarantined | duplicate
deriving DecidableEq, Repr

/-! ## Inputs -/

/-- `canonical_digest`: the digest of the canonical text of a JSON value. -/
def canonicalDigest (sha : Sha256) (value : Json) : Digest := sha.hexdigest (canonicalJson value)

structure MemoryCitation where
  evidenceId : Identifier
  sourceId : Identifier
  locator : String
  contentHash : Digest
  provenanceDigest : Digest
deriving DecidableEq

def MemoryCitation.modelDump (c : MemoryCitation) : Json :=
  .obj [("evidence_id", .str c.evidenceId.val), ("source_id", .str c.sourceId.val),
    ("locator", .str c.locator), ("content_hash", .str c.contentHash.val),
    ("provenance_digest", .str c.provenanceDigest.val)]

/-- `ErasableBlobReference`; its key is read by the erasure only. -/
structure ErasableBlobReference where
  tenantId : Identifier
  blobRef : Identifier
  contentDigest : Digest

/-- `RetentionBinding.legal_hold_refs`; the policy and the expiry are not read here. -/
structure RetentionBinding where
  legalHoldRefs : List Identifier
  refs_ok : legalHoldRefs.length ≤ 16

/-- `RetentionBinding.held`. -/
def RetentionBinding.held (r : RetentionBinding) : Bool := !r.legalHoldRefs.isEmpty

/-- `MemoryRecord`.  Its first citation is the one of its provenance, and its blob has its tenant and
    content. -/
structure MemoryRecord where
  memoryId : Identifier
  tenantId : Identifier
  tier : MemoryTier
  status : MemoryStatus
  runId : Identifier
  evidenceId : Identifier
  citation : MemoryCitation
  trust : SourceTrust
  chunkerVersion : Identifier
  embedderModel : Identifier
  embedderVersion : Identifier
  embeddingDimensions : Nat
  contentDigest : Digest
  retention : RetentionBinding
  blob : ErasableBlobReference
  supersedes : List Identifier
  canonicalDigest : Digest
  citation_ok : citation.evidenceId = evidenceId
  blob_ok : blob.tenantId = tenantId ∧ blob.contentDigest = contentDigest

def MemoryRecord.key (r : MemoryRecord) : String × String := (r.tenantId.val, r.memoryId.val)

/-- What ingestion reads of `NormalizedEvidence`. -/
structure NormalizedEvidence where
  evidenceId : Identifier
  tenantId : Identifier
  canonicalText : String
  contentHash : Digest
  disposition : EvidenceDisposition

inductive AcceptanceDisposition where
  | accept | reject
deriving DecidableEq, Repr

def AcceptanceDisposition.value : AcceptanceDisposition → String
  | .accept => "accept"
  | .reject => "reject"

inductive ReviewerKind where
  | human | policy
deriving DecidableEq, Repr

def ReviewerKind.value : ReviewerKind → String
  | .human => "human"
  | .policy => "policy"

structure MemoryAcceptance where
  decisionId : Identifier
  tenantId : Identifier
  memoryId : Identifier
  disposition : AcceptanceDisposition
  reviewerRef : Identifier
  reviewerKind : ReviewerKind
  policyId : Identifier
  policyRevision : Nat
  policyDigest : Digest
  reasonCode : Identifier
  decidedAt : Datetime

/-- `MemoryAcceptance.digest`. -/
def MemoryAcceptance.digest (sha : Sha256) (a : MemoryAcceptance) : Digest :=
  canonicalDigest sha (.obj [("decision_id", .str a.decisionId.val),
    ("tenant_id", .str a.tenantId.val), ("memory_id", .str a.memoryId.val),
    ("disposition", .str a.disposition.value), ("reviewer_ref", .str a.reviewerRef.val),
    ("reviewer_kind", .str a.reviewerKind.value), ("policy_id", .str a.policyId.val),
    ("policy_revision", .int a.policyRevision), ("policy_digest", .str a.policyDigest.val),
    ("reason_code", .str a.reasonCode.val), ("decided_at", .str a.decidedAt.jsonText)])

/-! ## Chunks and embeddings -/

structure MemoryChunk where
  chunkId : Identifier
  memoryId : Identifier
  tenantId : Identifier
  ordinal : Nat
  text : String
  contentDigest : Digest
  tokenEstimate : Nat
  byteCount : Nat
  citation : MemoryCitation
  chunkerVersion : Identifier

def MemoryChunk.modelDump (c : MemoryChunk) : Json :=
  .obj [("chunk_id", .str c.chunkId.val), ("memory_id", .str c.memoryId.val),
    ("tenant_id", .str c.tenantId.val), ("ordinal", .int c.ordinal), ("text", .str c.text),
    ("content_digest", .str c.contentDigest.val), ("token_estimate", .int c.tokenEstimate),
    ("byte_count", .int c.byteCount), ("citation", c.citation.modelDump),
    ("chunker_version", .str c.chunkerVersion.val)]

/-- `canonical_digest(chunks)`. -/
def chunkSetDigest (sha : Sha256) (chunks : List MemoryChunk) : Digest :=
  canonicalDigest sha (.arr (chunks.map MemoryChunk.modelDump))

structure EmbeddingSpec where
  provider : Identifier
  model : Identifier
  version : Identifier
  dimensions : Nat
  timeoutSeconds : FloatText
  maximumAttempts : Nat
  maximumBatchItems : Nat
  maximumBatchTokens : Nat

def EmbeddingSpec.modelDump (s : EmbeddingSpec) : Json :=
  .obj [("provider", .str s.provider.val), ("model", .str s.model.val),
    ("version", .str s.version.val), ("dimensions", .int s.dimensions), ("normalized", .bool true),
    ("timeout_seconds", .float s.timeoutSeconds), ("maximum_attempts", .int s.maximumAttempts),
    ("maximum_batch_items", .int s.maximumBatchItems),
    ("maximum_batch_tokens", .int s.maximumBatchTokens)]

/-- `EmbeddingSpec.digest`. -/
def EmbeddingSpec.digest (sha : Sha256) (s : EmbeddingSpec) : Digest :=
  canonicalDigest sha s.modelDump

structure EmbeddingRequest where
  operationId : Identifier
  tenantId : Identifier
  runId : Identifier
  reservationId : Identifier
  fenceToken : Identifier
  spec : EmbeddingSpec
  chunks : List MemoryChunk
  requestDigest : Digest
  chunks_ok : 1 ≤ chunks.length ∧ chunks.length ≤ 256
  tenant_ok : ∀ c ∈ chunks, c.tenantId = tenantId
  batch_ok : chunks.length ≤ spec.maximumBatchItems ∧
    (chunks.map (·.tokenEstimate)).sum ≤ spec.maximumBatchTokens

/-- The request of an embedding, with the digest of its own fields. -/
def buildRequest (sha : Sha256) (operationId reservationId fenceToken : Identifier)
    (record : MemoryRecord) (spec : EmbeddingSpec) (chunks : List MemoryChunk) :
    Except Error EmbeddingRequest :=
  let material : Json := .obj [("operation_id", .str operationId.val),
    ("tenant_id", .str record.tenantId.val), ("run_id", .str record.runId.val),
    ("reservation_id", .str reservationId.val), ("fence_token", .str fenceToken.val),
    ("spec", spec.modelDump), ("chunks", .arr (chunks.map MemoryChunk.modelDump))]
  if hchunks : 1 ≤ chunks.length ∧ chunks.length ≤ 256 then
    if htenant : ∀ c ∈ chunks, c.tenantId = record.tenantId then
      if hbatch : chunks.length ≤ spec.maximumBatchItems ∧
          (chunks.map (·.tokenEstimate)).sum ≤ spec.maximumBatchTokens then
        .ok { operationId, tenantId := record.tenantId, runId := record.runId, reservationId,
              fenceToken, spec, chunks, requestDigest := canonicalDigest sha material,
              chunks_ok := hchunks, tenant_ok := htenant, batch_ok := hbatch }
      else .error ⟨.validationError, "embedding request exceeds declared batch bounds"⟩
    else .error ⟨.validationError, "embedding request contains cross-tenant chunks"⟩
  else .error (validationError "EmbeddingRequest.chunks")

/-- `EmbeddingVector`; of its values the number is read, never the numbers. -/
structure EmbeddingVector where
  chunkId : Identifier
  contentDigest : Digest
  dimensions : Nat

structure EmbeddingResult where
  vectors : List EmbeddingVector
  resultDigest : Digest

structure IndexedChunk where
  record : MemoryRecord
  chunk : MemoryChunk
  vector : EmbeddingVector
  indexedAt : Datetime

/-! ## Facts -/

structure MemoryFact where
  tenantId : Identifier
  memoryId : Identifier
  sequence : Nat
  factId : Identifier
  factType : MemoryFactType
  commandId : Identifier
  actorRef : Identifier
  recordedAt : Datetime
  payload : Fields
  previousDigest : Digest
  factDigest : Digest
  sequence_ok : 1 ≤ sequence
  payload_ok : payload.entries.length ≤ 32

/-- `fact.model_dump(mode="json", exclude={"fact_digest"})`. -/
def MemoryFact.modelDump (f : MemoryFact) : Json :=
  .obj [("schema_version", .int 1), ("tenant_id", .str f.tenantId.val),
    ("memory_id", .str f.memoryId.val), ("sequence", .int f.sequence),
    ("fact_id", .str f.factId.val), ("fact_type", .str f.factType.value),
    ("command_id", .str f.commandId.val), ("actor_ref", .str f.actorRef.val),
    ("recorded_at", .str f.recordedAt.jsonText), ("payload", f.payload.toJson),
    ("previous_digest", .str f.previousDigest.val)]

/-- The keys a payload must not have. -/
def sensitive : List String := ["text", "query", "prompt", "completion", "tenant_id", "locator"]

/-! ## The projection -/

/-- The part of a projection that facts move. -/
structure Progress where
  status : MemoryStatus
  chunkCount : Nat
  indexed : Bool
  tombstoned : Bool
  legalHoldCount : Nat
  derivedPurged : Bool
  blobErased : Bool
  chunks_ok : chunkCount ≤ 10000
  holds_ok : legalHoldCount ≤ 16

structure MemoryProjection extends Progress where
  tenantId : Identifier
  memoryId : Identifier
  tier : MemoryTier
  version : Nat
  recordDigest : Digest
  lastFactDigest : Digest
  updatedAt : Datetime

def Progress.start : Progress where
  status := .candidate
  chunkCount := 0
  indexed := false
  tombstoned := false
  legalHoldCount := 0
  derivedPurged := false
  blobErased := false
  chunks_ok := by decide
  holds_ok := by decide

/-- `_bounded_count(payload.get("chunk_count"), maximum=10_000)`. -/
def boundedCount (value : Option Json) : Except Error { n : Nat // n ≤ 10000 } :=
  let invalid : Error := ⟨.integrityFailure, "memory fact count is invalid"⟩
  match value with
  | some (.int (.ofNat n)) => if h : n ≤ 10000 then .ok ⟨n, h⟩ else .error invalid
  | _ => .error invalid

/-- What a fact does to the lifecycle. -/
def Progress.advance (p : Progress) (factType : MemoryFactType) (payload : Fields) :
    Except Error Progress :=
  match factType with
  | .candidateAccepted => .ok { p with status := .accepted }
  | .candidateRejected => .ok { p with status := .rejected }
  | .chunkCompleted => do
    let count ← boundedCount (payload.lookup "chunk_count")
    .ok { p with chunkCount := count.val, chunks_ok := count.property }
  | .indexCompleted =>
    if p.status = .accepted ∨ p.status = .active then
      .ok { p with status := .active, indexed := true }
    else .error ⟨.integrityFailure, "unaccepted memory cannot be indexed"⟩
  | .superseded => .ok { p with status := .superseded }
  | .tombstoned | .retentionExpired | .deleteRequested =>
    .ok { p with tombstoned := true, status := .tombstoned }
  | .legalHoldApplied =>
    .ok { p with legalHoldCount := min 16 (p.legalHoldCount + 1), holds_ok := Nat.min_le_left _ _ }
  | .legalHoldReleased =>
    .ok { p with legalHoldCount := p.legalHoldCount - 1,
                 holds_ok := le_trans (Nat.sub_le _ _) p.holds_ok }
  | .derivedPurged =>
    if p.tombstoned = true then .ok { p with derivedPurged := true, indexed := false }
    else .error ⟨.integrityFailure, "derived memory purge requires a tombstone"⟩
  | .cryptoErased =>
    if p.derivedPurged = true ∧ p.legalHoldCount = 0 then
      .ok { p with blobErased := true, status := .erased }
    else .error ⟨.integrityFailure, "crypto erasure requires purge and no legal hold"⟩
  | _ => .ok p

/-- The fact follows the projection in the chain of a record. -/
def chained (sha : Sha256) (current : Option MemoryProjection) (fact : MemoryFact)
    (record : MemoryRecord) : Prop :=
  fact.sequence = (current.elim 0 (·.version)) + 1 ∧
    fact.previousDigest = current.elim zeroHash (·.lastFactDigest) ∧
    fact.tenantId = record.tenantId ∧ fact.memoryId = record.memoryId ∧
    fact.factDigest = canonicalDigest sha fact.modelDump

instance (sha : Sha256) (current : Option MemoryProjection) (fact : MemoryFact)
    (record : MemoryRecord) : Decidable (chained sha current fact record) :=
  inferInstanceAs (Decidable (_ ∧ _ ∧ _ ∧ _ ∧ _))

/-- `reduce_memory`. -/
def reduceMemory (sha : Sha256) (current : Option MemoryProjection) (fact : MemoryFact)
    (record : MemoryRecord) : Except Error MemoryProjection :=
  if ¬chained sha current fact record then
    .error ⟨.integrityFailure, "memory fact chain is invalid"⟩
  else if current.isNone ∧ fact.factType ≠ .candidateProposed then
    .error ⟨.integrityFailure, "memory lifecycle must begin with a candidate"⟩
  else do
    let progress ← (current.elim Progress.start (·.toProgress)).advance fact.factType fact.payload
    .ok { progress with
      tenantId := fact.tenantId, memoryId := fact.memoryId, tier := record.tier,
      version := fact.sequence, recordDigest := record.canonicalDigest,
      lastFactDigest := fact.factDigest, updatedAt := fact.recordedAt }

end Memory

end Aegis
