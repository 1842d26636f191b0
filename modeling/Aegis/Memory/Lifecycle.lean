/-
  THE LIFECYCLE OF DURABLE MEMORY: the in-memory ledger, the derived index and the service over them.

  The ledger appends a fact under a COMMAND ID that the service derives from the memory and a suffix.
  A command id that is known with the same fingerprint is a replay: the current projection is returned
  and nothing is written, whatever has happened since.

  Each method of the service appends as it goes, so one that raises may have written.  Ingestion calls
  the chunker and the embedder between facts, erasure the blob store: these are `Ports`, asked with the
  number of the question.
-/
import Mathlib
import Aegis.Lib.Exec
import Aegis.Lib.Machine
import Aegis.Memory.Records

namespace Aegis

namespace Memory

/-! ## Ports and state -/

/-- What is outside the ledger and the index.  `reprBytes payload` is `len(str(payload).encode())`. -/
structure Ports where
  clock : Nat → Datetime
  split : String → String → String → MemoryCitation → Except Error (List MemoryChunk)
  embed : Nat → EmbeddingRequest → Except Error EmbeddingResult
  eraseBlob : Nat → ErasableBlobReference → Except Error Unit
  reprBytes : Fields → Nat

/-- The ledger, keyed by tenant and memory or command; the items of the index, keyed by tenant and
    chunk; the blobs whose erasure was asked. -/
structure State where
  records : String × String → Option MemoryRecord
  facts : String × String → List MemoryFact
  commands : String × String → Option Digest
  projections : String × String → Option MemoryProjection
  items : AList (fun _ : String × String => IndexedChunk)
  erased : List ErasableBlobReference
  tick : Nat

def State.start : State where
  records := fun _ => none
  facts := fun _ => []
  commands := fun _ => none
  projections := fun _ => none
  items := ∅
  erased := []
  tick := 0

abbrev Action (α : Type) : Type := Exec Error State α

/-- `self._clock()`. -/
def now (ports : Ports) : Action Datetime := do
  let s ← Exec.read
  Exec.modify fun s => { s with tick := s.tick + 1 }
  pure (ports.clock s.tick)

/-! ## The ledger -/

/-- `put_record`. -/
def putRecord (record : MemoryRecord) : Action Unit := do
  let s ← Exec.read
  match s.records record.key with
  | some existing =>
    Exec.require (existing.canonicalDigest = record.canonicalDigest)
      ⟨.idempotencyConflict, "memory record replay changed content"⟩
  | none => Exec.modify fun s => { s with records := Function.update s.records record.key (some record) }

/-- What the fingerprint of a command is the digest of. -/
def fingerprintText (factType : MemoryFactType) (memoryId : String) (payload : Fields) : String :=
  canonicalJson (.obj [("fact_type", .str factType.value), ("memory_id", .str memoryId),
    ("payload", payload.sorted.toJson)])

/-- A `MemoryFact` with the digest of its own fields. -/
def buildFact (sha : Sha256) (ports : Ports) (tenantId memoryId : Identifier) (version : Nat)
    (previous : Digest) (factType : MemoryFactType) (commandId : Identifier) (actorRef : String)
    (recordedAt : Datetime) (payload : Fields) : Except Error MemoryFact := do
  let actor ← Identifier.parse "MemoryFact.actor_ref" actorRef
  if hp : payload.sorted.entries.length ≤ 32 then
    if 16384 < ports.reprBytes payload.sorted then
      .error ⟨.validationError, "memory fact payload exceeds the immutable bound"⟩
    else if ∃ k ∈ sensitive, k ∈ payload.sorted then
      .error ⟨.validationError, "memory fact payload contains prohibited sensitive fields"⟩
    else
      let fact : MemoryFact :=
        { tenantId, memoryId, sequence := version + 1,
          factId := stableIdentifier sha "memory-fact"
            [tenantId.val, memoryId.val, (version + 1).repr, commandId.val] 32,
          factType, commandId, actorRef := actor, recordedAt, payload := payload.sorted,
          previousDigest := previous, factDigest := zeroHash, sequence_ok := Nat.succ_pos _,
          payload_ok := hp }
      .ok { fact with factDigest := canonicalDigest sha fact.modelDump }
  else .error (validationError "MemoryFact.payload")

/-- The writes of an append. -/
def State.record (s : State) (key command : String × String) (fingerprint : Digest)
    (fact : MemoryFact) (projection : MemoryProjection) : State :=
  { s with facts := Function.update s.facts key (s.facts key ++ [fact]),
           commands := Function.update s.commands command (some fingerprint),
           projections := Function.update s.projections key (some projection) }

/-- `InMemoryMemoryLedger.append`. -/
def append (sha : Sha256) (ports : Ports) (tenantId memoryId : Identifier) (expectedVersion : Nat)
    (factType : MemoryFactType) (commandId : Identifier) (actorRef : String) (recordedAt : Datetime)
    (payload : Fields) : Action MemoryProjection := do
  let s ← Exec.read
  let key := (tenantId.val, memoryId.val)
  let fingerprint := sha.hexdigest (fingerprintText factType memoryId.val payload)
  match s.records key with
  | none => Exec.raise ⟨.integrityFailure, "memory record is missing"⟩
  | some record =>
    match s.commands (tenantId.val, commandId.val) with
    | some existing => do
      Exec.require (existing = fingerprint) ⟨.idempotencyConflict, "memory command replay changed"⟩
      match s.projections key with
      | none => Exec.raise ⟨.keyError, "projection"⟩
      | some projection => pure projection
    | none => do
      let current := s.projections key
      let version := current.elim 0 (·.version)
      Exec.require (version = expectedVersion)
        ⟨.concurrencyConflict, "memory aggregate version changed"⟩
      let previous := current.elim zeroHash (·.lastFactDigest)
      let fact ← Exec.lift (buildFact sha ports tenantId memoryId version previous factType
        commandId actorRef recordedAt payload)
      let projection ← Exec.lift (reduceMemory sha current fact record)
      Exec.modify fun s => s.record key (tenantId.val, commandId.val) fingerprint fact projection
      pure projection

/-! ## The derived index -/

/-- `InMemoryHybridIndex.index`. -/
def index (item : IndexedChunk) : Action Unit := do
  Exec.require (item.record.tenantId = item.chunk.tenantId
      ∧ item.chunk.chunkId = item.vector.chunkId
      ∧ item.chunk.contentDigest = item.vector.contentDigest
      ∧ item.vector.dimensions = item.record.embeddingDimensions
      ∧ (item.record.status = .accepted ∨ item.record.status = .active))
    ⟨.integrityFailure, "index input binding is invalid"⟩
  Exec.modify fun s =>
    { s with items := s.items.insert (item.record.tenantId.val, item.chunk.chunkId.val) item }

/-- The items of other memories. -/
def withoutMemory (items : AList (fun _ : String × String => IndexedChunk))
    (key : String × String) : AList (fun _ : String × String => IndexedChunk) where
  entries := items.entries.filter fun e => e.2.record.key ≠ key
  nodupKeys := items.nodupKeys.sublist List.filter_sublist

/-- `InMemoryHybridIndex.purge`: how many items it removed. -/
def purge (tenantId memoryId : String) : Action Nat := do
  let s ← Exec.read
  Exec.modify fun s => { s with items := withoutMemory s.items (tenantId, memoryId) }
  pure (s.items.entries.countP fun e => e.2.record.key = (tenantId, memoryId))

/-! ## The service -/

/-- The command id of a suffix. -/
def commandIdOf (sha : Sha256) (record : MemoryRecord) (suffix : String) : Identifier :=
  stableIdentifier sha "memory-command" [record.tenantId.val, record.memoryId.val, suffix] 32

/-- `_append`. -/
def appendFact (sha : Sha256) (ports : Ports) (record : MemoryRecord) (expected : Nat)
    (factType : MemoryFactType) (suffix actorRef : String) (payload : Fields) :
    Action MemoryProjection := do
  let time ← now ports
  append sha ports record.tenantId record.memoryId expected factType (commandIdOf sha record suffix)
    actorRef time payload

/-- The record and the projection of a memory. -/
def requireMemory (tenantId memoryId : String) (noRecord noProjection : String) :
    Action (MemoryRecord × MemoryProjection) := do
  let s ← Exec.read
  match s.records (tenantId, memoryId) with
  | none => Exec.raise ⟨.integrityFailure, noRecord⟩
  | some record =>
    match s.projections (tenantId, memoryId) with
    | none => Exec.raise ⟨.integrityFailure, noProjection⟩
    | some projection => pure (record, projection)

/-- `self._embedder.embed(request)`. -/
def callEmbedder (ports : Ports) (request : EmbeddingRequest) : Action EmbeddingResult := do
  let s ← Exec.read
  Exec.modify fun s => { s with tick := s.tick + 1 }
  Exec.lift (ports.embed s.tick request)

/-- `erase_blob(record.blob)`: it is noted, then it answers or raises. -/
def callEraser (ports : Ports) (blob : ErasableBlobReference) : Action Unit := do
  let s ← Exec.read
  Exec.modify fun s => { s with tick := s.tick + 1, erased := s.erased ++ [blob] }
  Exec.lift (ports.eraseBlob s.tick blob)

/-- `vectors.get(chunk_id)` in a dict built from the list: the last one with the id. -/
def vectorOf (vectors : List EmbeddingVector) (chunkId : Identifier) : Option EmbeddingVector :=
  vectors.reverse.find? fun v => v.chunkId = chunkId

def chunkerVersion : String := "aegis-boundary-chunker-v1"

/-- The bindings of a candidate that ingestion and rebuilding both check. -/
def Bound (record : MemoryRecord) (evidence : NormalizedEvidence) (spec : EmbeddingSpec) : Prop :=
  evidence.tenantId = record.tenantId ∧ evidence.evidenceId = record.evidenceId ∧
    evidence.contentHash = record.contentDigest ∧ record.chunkerVersion.val = chunkerVersion ∧
    record.embedderModel = spec.model ∧ record.embedderVersion = spec.version ∧
    record.embeddingDimensions = spec.dimensions

instance (record : MemoryRecord) (evidence : NormalizedEvidence) (spec : EmbeddingSpec) :
    Decidable (Bound record evidence spec) := inferInstanceAs (Decidable (_ ∧ _ ∧ _ ∧ _ ∧ _ ∧ _ ∧ _))

/-- The disposition of evidence that may become memory. -/
def Usable (evidence : NormalizedEvidence) : Prop :=
  evidence.disposition = .accepted ∨ evidence.disposition = .redacted

instance (evidence : NormalizedEvidence) : Decidable (Usable evidence) :=
  inferInstanceAs (Decidable (_ ∨ _))

/-- The chunks of a memory that is ingested are indexed one by one. -/
def indexChunk (record : MemoryRecord) (vectors : List EmbeddingVector) (indexedAt : Datetime)
    (chunk : MemoryChunk) : Action Unit :=
  match vectorOf vectors chunk.chunkId with
  | none => Exec.raise ⟨.integrityFailure, "embedding result omitted a chunk"⟩
  | some vector => index { record, chunk, vector, indexedAt }

/-- The request of the embedding of an ingestion. -/
def ingestRequest (sha : Sha256) (record : MemoryRecord) (version : Nat) (spec : EmbeddingSpec)
    (chunks : List MemoryChunk) : Except Error EmbeddingRequest :=
  let parts := [record.tenantId.val, record.memoryId.val]
  buildRequest sha (stableIdentifier sha "embed" parts 32)
    (stableIdentifier sha "embedding-reservation" parts 32)
    (stableIdentifier sha "embedding-fence" (parts ++ [version.repr]) 32) record spec chunks

/-- Ingestion after acceptance: scan, chunk, embed, index. -/
def ingestAccepted (sha : Sha256) (ports : Ports) (record : MemoryRecord)
    (evidence : NormalizedEvidence) (actorRef : String) (spec : EmbeddingSpec)
    (accepted : MemoryProjection) : Action MemoryProjection := do
  let content := Fields.of [("content_digest", .str record.contentDigest.val)]
  let scanning ← appendFact sha ports record accepted.version .scanRequested
    MemoryFactType.scanRequested.value actorRef content
  let scanned ← appendFact sha ports record scanning.version .scanCompleted
    MemoryFactType.scanCompleted.value actorRef content
  let chunking ← appendFact sha ports record scanned.version .chunkRequested
    MemoryFactType.chunkRequested.value actorRef content
  let chunks ← Exec.lift (ports.split record.tenantId.val record.memoryId.val
    evidence.canonicalText record.citation)
  let chunked ← appendFact sha ports record chunking.version .chunkCompleted "chunks" actorRef
    (Fields.of [("chunk_count", .int chunks.length),
      ("chunk_set_digest", .str (chunkSetDigest sha chunks).val)])
  let request ← Exec.lift (ingestRequest sha record chunked.version spec chunks)
  let embedding ← appendFact sha ports record chunked.version .embedRequested "embed-intent" actorRef
    (Fields.of [("request_digest", .str request.requestDigest.val),
      ("reservation_ref", .str request.reservationId.val),
      ("spec_digest", .str (spec.digest sha).val)])
  let result ← callEmbedder ports request
  let embedded ← appendFact sha ports record embedding.version .embedCompleted "embed-result" actorRef
    (Fields.of [("request_digest", .str request.requestDigest.val),
      ("result_digest", .str result.resultDigest.val),
      ("vector_count", .int result.vectors.length)])
  let indexing ← appendFact sha ports record embedded.version .indexRequested "index-intent" actorRef
    (Fields.of [("vector_set_digest", .str result.resultDigest.val)])
  let indexedAt ← now ports
  Exec.forEach chunks (indexChunk record result.vectors indexedAt)
  appendFact sha ports record indexing.version .indexCompleted "index-result" actorRef
    (Fields.of [("indexed_count", .int chunks.length),
      ("vector_set_digest", .str result.resultDigest.val)])

/-- `ingest`. -/
def ingest (sha : Sha256) (ports : Ports) (record : MemoryRecord) (evidence : NormalizedEvidence)
    (actorRef : String) (acceptance : MemoryAcceptance) (spec : EmbeddingSpec) :
    Action MemoryProjection := do
  Exec.require (Bound record evidence spec ∧ acceptance.tenantId = record.tenantId
      ∧ acceptance.memoryId = record.memoryId)
    ⟨.integrityFailure, "memory candidate bindings are invalid"⟩
  Exec.require (Usable evidence)
    ⟨.policyDenied, "quarantined or duplicate evidence cannot become memory"⟩
  putRecord record
  let proposed ← appendFact sha ports record 0 .candidateProposed "candidate" actorRef
    (Fields.of [("record_digest", .str record.canonicalDigest.val), ("tier", .str record.tier.value),
      ("trust", .str record.trust.value)])
  if acceptance.disposition = .reject then
    appendFact sha ports record proposed.version .candidateRejected "reject" actorRef
      (Fields.of [("reason_code", .str acceptance.reasonCode.val),
        ("acceptance_digest", .str (acceptance.digest sha).val)])
  else do
    Exec.require (record.status = .accepted ∨ record.status = .active)
      ⟨.policyDenied, "durable memory requires explicit accepted record"⟩
    let accepted ← appendFact sha ports record proposed.version .candidateAccepted "accept" actorRef
      (Fields.of [("record_digest", .str record.canonicalDigest.val),
        ("acceptance_digest", .str (acceptance.digest sha).val),
        ("reviewer_kind", .str acceptance.reviewerKind.value),
        ("policy_digest", .str acceptance.policyDigest.val)])
    ingestAccepted sha ports record evidence actorRef spec accepted

/-- The request of the embedding of a rebuild. -/
def rebuildRequest (sha : Sha256) (record : MemoryRecord) (rebuildId : String)
    (spec : EmbeddingSpec) (chunks : List MemoryChunk) : Except Error EmbeddingRequest :=
  let parts := [record.tenantId.val, record.memoryId.val, rebuildId]
  buildRequest sha (stableIdentifier sha "memory-rebuild-embed" parts 32)
    (stableIdentifier sha "memory-rebuild-reservation" parts 32)
    (stableIdentifier sha "memory-rebuild-fence" parts 32) record spec chunks

/-- The payload has the text under the key. -/
def hasText (payload : Fields) (key text : String) : Bool :=
  match payload.lookup key with
  | some (.str s) => s = text
  | _ => false

/-- The one chunk set of the ledger has this count and this digest. -/
def chunkSetRecorded (sha : Sha256) (facts : List MemoryFact) (chunks : List MemoryChunk) : Bool :=
  match facts.filter fun f => f.factType = .chunkCompleted with
  | [fact] =>
    (match fact.payload.lookup "chunk_count" with
      | some (.int n) => n = chunks.length
      | _ => false)
      && hasText fact.payload "chunk_set_digest" (chunkSetDigest sha chunks).val
  | _ => false

/-- The facts of earlier runs of a rebuild. -/
def rebuildFacts (facts : List MemoryFact) (rebuildId : String) : List MemoryFact :=
  facts.filter fun f => (f.factType = .rebuildRequested || f.factType = .rebuildCompleted)
    && hasText f.payload "rebuild_id" rebuildId

/-- The items of a rebuild; the clock is read for each of them. -/
def rebuiltItems (ports : Ports) (record : MemoryRecord) (vectors : List EmbeddingVector) :
    List MemoryChunk → Action (List IndexedChunk)
  | [] => pure []
  | chunk :: chunks => do
    match vectorOf vectors chunk.chunkId with
    | none => Exec.raise ⟨.keyError, chunk.chunkId.val⟩
    | some vector => do
      let indexedAt ← now ports
      let rest ← rebuiltItems ports record vectors chunks
      pure ({ record, chunk, vector, indexedAt } :: rest)

/-- The rebuild itself: intent, embedding, a new index, result. -/
def runRebuild (sha : Sha256) (ports : Ports) (record : MemoryRecord) (projection : MemoryProjection)
    (rebuildId actorRef : String) (spec : EmbeddingSpec) (chunks : List MemoryChunk)
    (request : EmbeddingRequest) : Action MemoryProjection := do
  let requested ← appendFact sha ports record projection.version .rebuildRequested
    ("rebuild-requested:" ++ rebuildId) actorRef
    (Fields.of [("rebuild_id", .str rebuildId), ("request_digest", .str request.requestDigest.val),
      ("record_digest", .str record.canonicalDigest.val), ("spec_digest", .str (spec.digest sha).val)])
  let result ← callEmbedder ports request
  Exec.require ((result.vectors.map (·.chunkId)).dedup.length = chunks.length)
    ⟨.integrityFailure, "memory rebuild embedding set is incomplete"⟩
  let indexed ← rebuiltItems ports record result.vectors chunks
  let _ ← purge record.tenantId.val record.memoryId.val
  Exec.forEach indexed index
  appendFact sha ports record requested.version .rebuildCompleted ("rebuild-completed:" ++ rebuildId)
    actorRef
    (Fields.of [("rebuild_id", .str rebuildId), ("indexed_count", .int indexed.length),
      ("request_digest", .str request.requestDigest.val),
      ("result_digest", .str result.resultDigest.val)])

/-- `rebuild_derived`. -/
def rebuildDerived (sha : Sha256) (ports : Ports) (tenantId memoryId rebuildId : String)
    (evidence : NormalizedEvidence) (actorRef : String) (spec : EmbeddingSpec) :
    Action MemoryProjection := do
  let (record, projection) ← requireMemory tenantId memoryId
    "cannot rebuild unknown memory" "memory projection must be rebuilt before its index"
  Exec.require (Bound record evidence spec ∧ Usable evidence ∧ projection.status = .active
      ∧ projection.indexed = true ∧ projection.tombstoned = false
      ∧ projection.derivedPurged = false ∧ projection.blobErased = false)
    ⟨.integrityFailure, "memory rebuild bindings are invalid"⟩
  let chunks ← Exec.lift (ports.split record.tenantId.val record.memoryId.val
    evidence.canonicalText record.citation)
  let s ← Exec.read
  let facts := s.facts (tenantId, memoryId)
  Exec.require (chunkSetRecorded sha facts chunks = true)
    ⟨.integrityFailure, "memory rebuild chunk set differs from ledger"⟩
  let request ← Exec.lift (rebuildRequest sha record rebuildId spec chunks)
  Exec.require (∀ f ∈ rebuildFacts facts rebuildId,
      hasText f.payload "request_digest" request.requestDigest.val = true)
    ⟨.idempotencyConflict, "memory rebuild replay changed"⟩
  if ∃ f ∈ rebuildFacts facts rebuildId, f.factType = .rebuildCompleted then
    pure projection
  else
    runRebuild sha ports record projection rebuildId actorRef spec chunks request

/-- `tombstone_and_erase`. -/
def tombstoneAndErase (sha : Sha256) (ports : Ports) (tenantId memoryId actorRef reasonCode : String) :
    Action MemoryProjection := do
  let (record, projection) ← requireMemory tenantId memoryId "memory is missing"
    "memory is missing"
  Exec.require (projection.legalHoldCount = 0 ∧ record.retention.held = false)
    ⟨.policyDenied, "memory is under legal hold"⟩
  let tombstoned ← appendFact sha ports record projection.version .tombstoned "tombstone" actorRef
    (Fields.of [("reason_code", .str reasonCode)])
  let purged ← purge tenantId memoryId
  let cleared ← appendFact sha ports record tombstoned.version .derivedPurged "purge" actorRef
    (Fields.of [("purged_count", .int purged)])
  callEraser ports record.blob
  appendFact sha ports record cleared.version .cryptoErased "crypto-erase" actorRef
    (Fields.of [("blob_ref_digest", .str (sha.hexdigest record.blob.blobRef.val).val)])

/-- One memory of a supersession. -/
def supersedeOne (sha : Sha256) (ports : Ports) (replacement : MemoryRecord) (actorRef : String)
    (memoryId : Identifier) : Action MemoryProjection := do
  let (record, projection) ← requireMemory replacement.tenantId.val memoryId.val
    "superseded memory is missing" "superseded memory is missing"
  Exec.require (projection.status = .accepted ∨ projection.status = .active)
    ⟨.integrityFailure, "superseded memory is not active"⟩
  let superseded ← appendFact sha ports record projection.version .superseded
    ("superseded-by:" ++ replacement.memoryId.val) actorRef
    (Fields.of [("replacement_ref", .str (stableId sha "memory-ref"
        [replacement.tenantId.val, replacement.memoryId.val] 32)),
      ("replacement_digest", .str replacement.canonicalDigest.val)])
  let _ ← purge replacement.tenantId.val memoryId.val
  pure superseded

def supersedeEach (sha : Sha256) (ports : Ports) (replacement : MemoryRecord) (actorRef : String) :
    List Identifier → Action (List MemoryProjection)
  | [] => pure []
  | memoryId :: rest => do
    let projection ← supersedeOne sha ports replacement actorRef memoryId
    let projections ← supersedeEach sha ports replacement actorRef rest
    pure (projection :: projections)

/-- `supersede`.  The ids that pass the check are those of the record, so they are identifiers. -/
def supersede (sha : Sha256) (ports : Ports) (replacement : MemoryRecord)
    (replacedMemoryIds : List String) (actorRef : String) : Action (List MemoryProjection) := do
  Exec.require (replacement.supersedes.map (·.val)
        = replacedMemoryIds.dedup.insertionSort (fun a b => a ≤ b)
      ∧ (replacement.status = .accepted ∨ replacement.status = .active))
    ⟨.policyDenied, "replacement memory lacks exact accepted supersession"⟩
  supersedeEach sha ports replacement actorRef replacement.supersedes

/-- The fact, the suffix and the payload of a hold. -/
def holdType (applied : Bool) : MemoryFactType :=
  if applied then .legalHoldApplied else .legalHoldReleased

def holdSuffix (holdRef : String) (applied : Bool) : String :=
  "legal-hold:" ++ (if applied then "apply" else "release") ++ ":" ++ holdRef

def holdPayload (sha : Sha256) (holdRef : String) : Fields :=
  Fields.of [("hold_ref_digest", .str (sha.hexdigest holdRef).val)]

/-- `set_legal_hold`. -/
def setLegalHold (sha : Sha256) (ports : Ports) (tenantId memoryId holdRef : String) (applied : Bool)
    (actorRef : String) : Action MemoryProjection := do
  let (record, projection) ← requireMemory tenantId memoryId "memory is missing"
    "memory is missing"
  appendFact sha ports record projection.version (holdType applied) (holdSuffix holdRef applied)
    actorRef (holdPayload sha holdRef)

/-! ## Calls -/

inductive Op where
  | ingest (record : MemoryRecord) (evidence : NormalizedEvidence) (actorRef : String)
    (acceptance : MemoryAcceptance) (spec : EmbeddingSpec)
  | rebuildDerived (tenantId memoryId rebuildId : String) (evidence : NormalizedEvidence)
    (actorRef : String) (spec : EmbeddingSpec)
  | tombstoneAndErase (tenantId memoryId actorRef reasonCode : String)
  | supersede (replacement : MemoryRecord) (replacedMemoryIds : List String) (actorRef : String)
  | setLegalHold (tenantId memoryId holdRef : String) (applied : Bool) (actorRef : String)

/-- The body of a call; what it returns as a list of projections. -/
def Op.body (sha : Sha256) (ports : Ports) : Op → Action (List MemoryProjection)
  | .ingest record evidence actorRef acceptance spec => do
    return [← Memory.ingest sha ports record evidence actorRef acceptance spec]
  | .rebuildDerived tenantId memoryId rebuildId evidence actorRef spec => do
    return [← Memory.rebuildDerived sha ports tenantId memoryId rebuildId evidence actorRef spec]
  | .tombstoneAndErase tenantId memoryId actorRef reasonCode => do
    return [← Memory.tombstoneAndErase sha ports tenantId memoryId actorRef reasonCode]
  | .supersede replacement replacedMemoryIds actorRef =>
    Memory.supersede sha ports replacement replacedMemoryIds actorRef
  | .setLegalHold tenantId memoryId holdRef applied actorRef => do
    return [← Memory.setLegalHold sha ports tenantId memoryId holdRef applied actorRef]

/-- One call: what it returns or raises, and the state it leaves. -/
def step (sha : Sha256) (ports : Ports) (s : State) (op : Op) :
    Except Error (List MemoryProjection) × State := op.body sha ports s

abbrev HistoryEntry := Machine.Entry State Op (Except Error (List MemoryProjection))

def run (sha : Sha256) (ports : Ports) (ops : List Op) : State :=
  Machine.final (step sha ports) State.start ops

def history (sha : Sha256) (ports : Ports) (ops : List Op) : List HistoryEntry :=
  Machine.trace (step sha ports) State.start ops

end Memory

end Aegis
