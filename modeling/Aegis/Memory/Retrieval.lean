/-
  RETRIEVAL FROM THE DERIVED INDEX: eligibility, ranking, three greedy passes, and a cache.

  Eligible items are scored and ranked; of the first `maximum_candidates` at most `top_k` are drawn one
  by one, the best against those already drawn; of these, in the order drawn, the ones that fit the
  budgets become hits.  The pass that fills the budgets also marks contradictions.

  The scores are numbers of floating point: a `Ranking` is their arithmetic, as a parameter, and what
  follows holds of any.  A record has fields that only retrieval reads; they are its `RecordAttributes`.

  A result is remembered under the tenant, the digest of the query and a digest of the policy and of who
  asks; indexing or purging anything of the tenant forgets it.
-/
import Mathlib
import Aegis.Lib.Selection
import Aegis.Evidence.Records
import Aegis.Memory.Chunker

namespace Aegis

namespace Memory

open Evidence (DataClassification)

deriving instance DecidableEq for RetentionBinding, ErasableBlobReference, MemoryRecord, MemoryChunk,
  EmbeddingVector, IndexedChunk

/-! ## Records -/

structure MemoryACL where
  roles : List Identifier
  principals : List Identifier

/-- `MemoryACL.permits`. -/
def MemoryACL.permits (acl : MemoryACL) (roles : List Identifier) (principalRef : Identifier) : Bool :=
  (acl.roles.isEmpty && acl.principals.isEmpty)
    || (acl.roles.any (fun role => decide (role ∈ roles)) || decide (principalRef ∈ acl.principals))

/-- The fields of a `MemoryRecord` that only retrieval reads. -/
structure RecordAttributes where
  acl : MemoryACL
  classification : DataClassification
  acceptedAt : Option Datetime
  expiresAt : Datetime
  supersededBy : Option Identifier
  tombstoneReason : Option Identifier

/-- `RetrievalPolicy`.  That its weights sum to one is a fact about floats, and is left out. -/
structure RetrievalPolicy where
  policyId : Identifier
  revision : Nat
  lexicalWeight : FloatText
  vectorWeight : FloatText
  recencyWeight : FloatText
  qualityWeight : FloatText
  mmrLambda : FloatText
  maximumCandidates : Nat
  topK : Nat
  maximumTokens : Nat
  maximumBytes : Nat
  cacheTtlSeconds : Nat
  freshnessSeconds : Nat
  candidates_ok : 1 ≤ maximumCandidates ∧ maximumCandidates ≤ 1000
  topK_ok : 1 ≤ topK ∧ topK ≤ 100 ∧ topK ≤ maximumCandidates
  tokens_ok : 16 ≤ maximumTokens ∧ maximumTokens ≤ 32768
  bytes_ok : 256 ≤ maximumBytes ∧ maximumBytes ≤ 262144

def RetrievalPolicy.modelDump (p : RetrievalPolicy) : Json :=
  .obj [("policy_id", .str p.policyId.val), ("revision", .int p.revision),
    ("lexical_weight", .float p.lexicalWeight), ("vector_weight", .float p.vectorWeight),
    ("recency_weight", .float p.recencyWeight), ("quality_weight", .float p.qualityWeight),
    ("mmr_lambda", .float p.mmrLambda), ("maximum_candidates", .int p.maximumCandidates),
    ("top_k", .int p.topK), ("maximum_tokens", .int p.maximumTokens),
    ("maximum_bytes", .int p.maximumBytes), ("cache_ttl_seconds", .int p.cacheTtlSeconds),
    ("freshness_seconds", .int p.freshnessSeconds)]

/-- `RetrievalPolicy.digest`. -/
def RetrievalPolicy.digest (sha : Sha256) (p : RetrievalPolicy) : Digest :=
  canonicalDigest sha p.modelDump

/-- `RetrievalQuery`; its run and its incident are not read here. -/
structure RetrievalQuery where
  queryId : Identifier
  tenantId : Identifier
  principalRef : Identifier
  roles : List Identifier
  allowedClassifications : Finset DataClassification
  text : String
  queryDigest : Digest
  requestedAt : Datetime
  asOf : Datetime
  policy : RetrievalPolicy

/-- `RetrievalHit`; its five scores are one value. -/
structure RetrievalHit (S : Type) where
  memoryId : Identifier
  chunkId : Identifier
  tier : MemoryTier
  text : String
  citation : MemoryCitation
  scores : S
  stale : Bool
  contradictionGroup : Option Identifier
deriving DecidableEq

structure RetrievalResult (S : Type) where
  queryId : Identifier
  queryDigest : Digest
  policyDigest : Digest
  hits : List (RetrievalHit S)
  candidateCount : Nat
  tokenCount : Nat
  byteCount : Nat
  insufficientContext : Bool
  cacheHit : Bool
  resultDigest : Digest

/-- An item of the index with the hit it would be. -/
abbrev Scored (S : Type) : Type := IndexedChunk × RetrievalHit S

/-- The arithmetic of the scores, on numbers `V`, scores `S` and keys `K`: which numbers are finite, the
    scores of an item, whether it is stale, its combined score, its worth beside the items drawn before
    it, and the JSON fields of its scores. -/
structure Ranking (V S K : Type) where
  finite : V → Bool
  scores : RetrievalQuery → List V → IndexedChunk → S
  stale : RetrievalQuery → IndexedChunk → Bool
  combined : S → K
  worth : RetrievalPolicy → List (Scored S) → Scored S → K
  dump : S → List (String × Json)

/-- What the standard library knows of Unicode. -/
structure Unicode where
  nfc : String → String
  lower : String → String

/-! ## Terms -/

/-- `[a-z0-9]`. -/
def termStart (c : Char) : Bool := c.isLower || c.isDigit

/-- `[a-z0-9._:-]`. -/
def termChar (c : Char) : Bool := termStart c || c == '.' || c == '_' || c == ':' || c == '-'

/-- `_WORD.findall`, past the characters of the match before. -/
def findTerms : Nat → List Char → List String
  | _, [] => []
  | skip + 1, _ :: cs => findTerms skip cs
  | 0, c :: cs =>
    let tail := (cs.takeWhile termChar).take 63
    if termStart c = true ∧ tail ≠ [] then String.ofList (c :: tail) :: findTerms tail.length cs
    else findTerms 0 cs

variable {V S K : Type} [DecidableEq S] [LinearOrder K]

section

variable (sha : Sha256) (unicode : Unicode) (attributes : MemoryRecord → RecordAttributes)
  (ranking : Ranking V S K)

/-- The terms of a text whose canonical form is known to exist. -/
def termsOf (text : String) : List String :=
  findTerms 0 (unicode.lower (String.ofList (canonicalChars unicode.nfc text))).toList

/-- `_terms`. -/
def terms (text : String) : Except Error (List String) := do
  let canonical ← canonicalText unicode.nfc text
  pure (findTerms 0 (unicode.lower canonical).toList)

/-- `_claim_key`: the first four terms.  Only texts that were scored are asked, so they have terms. -/
def claimKey (text : String) : String := joinParts ((termsOf unicode text).take 4)

/-! ## Candidates -/

/-- `_eligible`. -/
def eligible (query : RetrievalQuery) (item : IndexedChunk) : Bool :=
  let attrs := attributes item.record
  decide (item.record.tenantId = query.tenantId)
    && decide (item.record.status = .accepted ∨ item.record.status = .active)
    && decide (attrs.classification ∈ query.allowedClassifications)
    && attrs.acl.permits query.roles query.principalRef
    && (match attrs.acceptedAt with
      | none => false
      | some acceptedAt => decide (acceptedAt ≤ query.asOf))
    && decide (query.asOf < attrs.expiresAt)
    && attrs.supersededBy.isNone && attrs.tombstoneReason.isNone

/-- The hit of an item. -/
def hitOf (query : RetrievalQuery) (vector : List V) (item : IndexedChunk) : RetrievalHit S where
  memoryId := item.record.memoryId
  chunkId := item.chunk.chunkId
  tier := item.record.tier
  text := item.chunk.text
  citation := item.chunk.citation
  scores := ranking.scores query vector item
  stale := ranking.stale query item
  contradictionGroup := none

/-- `_score`. -/
def score (query : RetrievalQuery) (vector : List V) (item : IndexedChunk) :
    Except Error (Scored S) := do
  let _ ← terms unicode item.chunk.text
  pure (item, hitOf ranking query vector item)

/-- The key the scored items are sorted by. -/
def sortKey (p : Scored S) : Kᵒᵈ ×ₗ String ×ₗ Nat ×ₗ String :=
  toLex (OrderDual.toDual (ranking.combined p.2.scores),
    toLex (p.1.record.memoryId.val, toLex (p.1.chunk.ordinal, p.1.chunk.chunkId.val)))

/-- The first `maximum_candidates` of the scored items. -/
def candidates (query : RetrievalQuery) (scored : List (Scored S)) : List (Scored S) :=
  (scored.insertionSort fun p q => sortKey ranking p ≤ sortKey ranking q).take
    query.policy.maximumCandidates

/-- The key of the first is above the key of the second: its worth, or the lower ordinal. -/
def better (policy : RetrievalPolicy) (selected : List (Scored S)) (p q : Scored S) : Bool :=
  let left := ranking.worth policy selected p
  let right := ranking.worth policy selected q
  decide (right < left) || (decide (left = right) && decide (p.1.chunk.ordinal < q.1.chunk.ordinal))

/-- `max(remaining, key=...)`: the first of the best. -/
def best (policy : RetrievalPolicy) (selected remaining : List (Scored S)) : Option (Scored S) :=
  match remaining with
  | [] => none
  | p :: rest =>
    some (rest.foldl (fun most q => if better ranking policy selected q most = true then q else most) p)

/-- `_mmr`. -/
def mmr (policy : RetrievalPolicy) (pool : List (Scored S)) : List (Scored S) :=
  Selection.draw (best ranking policy) policy.topK [] pool

/-! ## Hits -/

/-- What the pass over the selected items has so far. -/
structure Gathered (S : Type) where
  hits : List (RetrievalHit S)
  tokens : Nat
  byteCount : Nat
  seenClaims : String → Option Digest

def Gathered.start (S : Type) : Gathered S where
  hits := []
  tokens := 0
  byteCount := 0
  seenClaims := fun _ => none

/-- The group of the contradictions about a claim. -/
def contradictionGroup (tenantId : Identifier) (key : String) : Identifier :=
  stableIdentifier sha "contradiction" [tenantId.val, key] 24

/-- One turn of the pass. -/
def gather (query : RetrievalQuery) (g : Gathered S) (p : Scored S) : Gathered S :=
  let tokenCount := p.1.chunk.tokenEstimate
  let chunkBytes := p.1.chunk.byteCount
  if query.policy.topK ≤ g.hits.length ∨ query.policy.maximumTokens < g.tokens + tokenCount
      ∨ query.policy.maximumBytes < g.byteCount + chunkBytes then g
  else
    let key := claimKey unicode p.1.chunk.text
    let contradiction : Option Identifier :=
      match g.seenClaims key with
      | none => none
      | some prior =>
        if prior ≠ p.1.chunk.contentDigest then some (contradictionGroup sha query.tenantId key) else none
    let hits :=
      if contradiction.isSome then
        g.hits.map fun existing =>
          if claimKey unicode existing.text = key then { existing with contradictionGroup := contradiction }
          else existing
      else g.hits
    { hits := hits ++ [{ p.2 with contradictionGroup := contradiction }]
      tokens := g.tokens + tokenCount
      byteCount := g.byteCount + chunkBytes
      seenClaims := Function.update g.seenClaims key (some p.1.chunk.contentDigest) }

/-- `hit.model_dump(mode="json")`. -/
def RetrievalHit.modelDump (hit : RetrievalHit S) : Json :=
  .obj ([("memory_id", .str hit.memoryId.val), ("chunk_id", .str hit.chunkId.val),
    ("tier", .str hit.tier.value), ("text", .str hit.text), ("citation", hit.citation.modelDump)]
    ++ ranking.dump hit.scores
    ++ [("stale", .bool hit.stale),
      ("contradiction_group", hit.contradictionGroup.elim .null fun g => .str g.val)])

/-- The result of a query that is not answered from the cache. -/
def RetrievalResult.of (query : RetrievalQuery) (candidateCount : Nat) (g : Gathered S) :
    RetrievalResult S where
  queryId := query.queryId
  queryDigest := query.queryDigest
  policyDigest := query.policy.digest sha
  hits := g.hits
  candidateCount := candidateCount
  tokenCount := g.tokens
  byteCount := g.byteCount
  insufficientContext := g.hits.isEmpty
  cacheHit := false
  resultDigest := canonicalDigest sha (.obj [("query_id", .str query.queryId.val),
    ("query_digest", .str query.queryDigest.val), ("policy_digest", .str (query.policy.digest sha).val),
    ("hits", .arr (g.hits.map (RetrievalHit.modelDump ranking))), ("candidate_count", .int candidateCount),
    ("token_count", .int g.tokens), ("byte_count", .int g.byteCount),
    ("insufficient_context", .bool g.hits.isEmpty), ("cache_hit", .bool false)])

/-- The items that are scored. -/
def scoredItems (query : RetrievalQuery) (vector : List V) (items : List IndexedChunk) :
    List IndexedChunk :=
  items.filter fun item =>
    eligible attributes query item && decide (item.vector.dimensions = vector.length)

/-- `retrieve`, past the cache. -/
def compute (query : RetrievalQuery) (vector : List V) (items : List IndexedChunk) :
    Except Error (RetrievalResult S) := do
  let _ ← terms unicode query.text
  let scored ← (scoredItems attributes query vector items).mapM (score unicode ranking query vector)
  let pool := candidates ranking query scored
  let selected := mmr ranking query.policy pool
  pure (RetrievalResult.of sha ranking query pool.length
    (selected.foldl (gather sha unicode query) (Gathered.start S)))

/-! ## The index -/

/-- The items of an index, by tenant and chunk. -/
abbrev IndexItems : Type := AList (fun _ : String × String => IndexedChunk)

/-- `InMemoryHybridIndex`: its items, and the results it remembers with the time they expire. -/
structure HybridIndex (S : Type) where
  items : IndexItems
  cache : AList (fun _ : String × Digest × Digest => Datetime × RetrievalResult S)

def HybridIndex.start (S : Type) : HybridIndex S where
  items := ∅
  cache := ∅

/-- The names of the classifications, sorted. -/
def classificationNames (allowed : Finset DataClassification) : List Json :=
  ([.confidential, .internal, .public, .restricted] : List DataClassification).filterMap fun c =>
    if c ∈ allowed then some (.str c.value) else none

/-- What the last part of a cache key is the digest of. -/
def cacheMaterial (query : RetrievalQuery) : Json :=
  .obj [("policy", .str (query.policy.digest sha).val), ("principal_ref", .str query.principalRef.val),
    ("roles", .arr (query.roles.map fun role => .str role.val)),
    ("classifications", .arr (classificationNames query.allowedClassifications)),
    ("as_of", .str query.asOf.jsonText)]

/-- `cache_key`. -/
def cacheKey (query : RetrievalQuery) : String × Digest × Digest :=
  (query.tenantId.val, query.queryDigest, canonicalDigest sha (cacheMaterial sha query))

/-- `tuple(self._items.values())`. -/
def itemsOf (items : IndexItems) : List IndexedChunk :=
  items.entries.map fun e => e.2

abbrev IndexAction (S α : Type) : Type := Exec Error (HybridIndex S) α

/-- The cache without what is remembered for a tenant. -/
def forgetTenant (cache : AList (fun _ : String × Digest × Digest => Datetime × RetrievalResult S))
    (tenantId : String) : AList (fun _ : String × Digest × Digest => Datetime × RetrievalResult S) where
  entries := cache.entries.filter fun e => e.1.1 ≠ tenantId
  nodupKeys := cache.nodupKeys.sublist List.filter_sublist

/-- `InMemoryHybridIndex.index`, with its cache. -/
def HybridIndex.index (item : IndexedChunk) : IndexAction S Unit := do
  Exec.require (item.record.tenantId = item.chunk.tenantId
      ∧ item.chunk.chunkId = item.vector.chunkId
      ∧ item.chunk.contentDigest = item.vector.contentDigest
      ∧ item.vector.dimensions = item.record.embeddingDimensions
      ∧ (item.record.status = .accepted ∨ item.record.status = .active))
    ⟨.integrityFailure, "index input binding is invalid"⟩
  Exec.modify fun s =>
    { items := s.items.insert (item.record.tenantId.val, item.chunk.chunkId.val) item
      cache := forgetTenant s.cache item.record.tenantId.val }

/-- `InMemoryHybridIndex.purge`, with its cache. -/
def HybridIndex.purge (tenantId memoryId : String) : IndexAction S Nat := do
  let s ← Exec.read
  Exec.modify fun s =>
    { items := withoutMemory s.items (tenantId, memoryId)
      cache := forgetTenant s.cache tenantId }
  pure (s.items.entries.countP fun e => e.2.record.key = (tenantId, memoryId))

/-- The rest of `retrieve`: compute, and remember. -/
def retrieveFresh (query : RetrievalQuery) (vector : List V) : IndexAction S (RetrievalResult S) := do
  let s ← Exec.read
  let result ← Exec.lift (compute sha unicode attributes ranking query vector (itemsOf s.items))
  if 0 < query.policy.cacheTtlSeconds then do
    let expiry := query.requestedAt.addSeconds query.policy.cacheTtlSeconds
    Exec.modify fun s => { s with cache := s.cache.insert (cacheKey sha query) (expiry, result) }
    pure result
  else pure result

/-- `InMemoryHybridIndex.retrieve`. -/
def retrieve (query : RetrievalQuery) (vector : List V) : IndexAction S (RetrievalResult S) := do
  Exec.require (2 ≤ vector.length ∧ vector.all ranking.finite = true)
    ⟨.valueError, "query vector is invalid"⟩
  let s ← Exec.read
  match s.cache.lookup (cacheKey sha query) with
  | some cached =>
    if query.requestedAt < cached.1 then pure { cached.2 with cacheHit := true }
    else do
      Exec.modify fun s => { s with cache := s.cache.erase (cacheKey sha query) }
      retrieveFresh sha unicode attributes ranking query vector
  | none => retrieveFresh sha unicode attributes ranking query vector

end

end Memory

end Aegis
