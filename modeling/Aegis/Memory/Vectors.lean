/-
  WHETHER AN EMBEDDING IS COMPLETE.

  The gateway counts the vectors of an answer and looks up each of them among the chunks of the request.
  A count and memberships leave one way to cheat: a vector given twice stands in for a missing one.  So an
  answer that passes is complete exactly when its vectors are of distinct chunks (`complete_iff`), and
  only then is no chunk of an ingestion left without a vector.
-/
import Mathlib
import Aegis.Memory.Embedding
import Aegis.Memory.Holds

namespace Aegis

namespace Memory

namespace Embedding

/-! ## Answers that pass -/

/-- What `embed` checks of an answer. -/
structure Checked (request : EmbeddingRequest) (result : EmbeddingAnswer) : Prop where
  count : result.vectors.length = (request.chunks.map fun c => c.chunkId).dedup.length
  fence : result.fenceToken = request.fenceToken
  digest : result.requestDigest = request.requestDigest
  vectors : ∀ v ∈ result.vectors, Expected request v

section

variable {sha : Sha256} {config : Config} {exceeded : Int → FloatText → Bool}

/-- An answer that is passed on has been checked. -/
theorem settle_sat (call : Started) (answer : Except Error EmbeddingAnswer) (time : Datetime) (s : State) :
    Exec.Sat (settle sha config exceeded call answer time) s
      (fun result _ => answer = .ok result ∧ Checked call.request result) (fun _ _ => True) := by
  cases answer with
  | error e => exact Exec.Sat.skip fun _ _ => trivial
  | ok result =>
    refine Exec.Sat.check (fun _ => trivial) fun _ => ?_
    refine Exec.Sat.check (fun _ => trivial) fun ⟨hcount, hfence, hdigest⟩ => ?_
    refine Exec.Sat.check (fun _ => trivial) fun hvectors => ?_
    exact ⟨rfl, hcount, hfence, hdigest, hvectors⟩

/-- **What `embed` returns is the answer of its provider, and has been checked.** -/
theorem finish_checked {index : Nat} {answer : Except Error EmbeddingAnswer} {time : Datetime}
    {s s' : State} {result : EmbeddingAnswer}
    (h : finish sha config exceeded index answer time s = (.ok (some result), s')) :
    ∃ call, s.started[index]? = some call ∧ answer = .ok result ∧ Checked call.request result := by
  cases hcall : s.started[index]? with
  | none =>
    have hsat : Exec.Sat (finish sha config exceeded index answer time) s
        (fun r _ => r = none) (fun _ _ => True) := by
      unfold finish
      rw [Exec.sat_bind, Exec.sat_read, hcall]
      exact rfl
    exact absurd (hsat.ok h) (by simp)
  | some call =>
    have hsat : Exec.Sat (finish sha config exceeded index answer time) s
        (fun r _ => ∀ result, r = some result → answer = .ok result ∧ Checked call.request result)
        (fun _ _ => True) := by
      unfold finish
      rw [Exec.sat_bind, Exec.sat_read, hcall]
      dsimp only
      rw [Exec.sat_bind, Exec.sat_reify]
      refine Exec.Sat.mono (settle_sat call answer time s) (fun checked s₁ hchecked => ?_) fun e s₁ _ => ?_
      · rw [Exec.sat_bind, Exec.sat_modify, Exec.sat_lift]
        refine ⟨fun r hr result hresult => ?_, fun e he => trivial⟩
        rw [hresult] at hr
        rw [← Option.some.inj (Except.ok.inj hr)]
        exact hchecked
      · rw [Exec.sat_bind, Exec.sat_modify, Exec.sat_lift]
        exact ⟨fun r hr => (by cases hr), fun _ _ => trivial⟩
    exact ⟨call, rfl, hsat.ok h result rfl⟩

/-! ## Completeness -/

/-- One vector for each chunk of the request and none other, each of the content and the dimensions asked
    for; all bound to the request. -/
structure Complete (request : EmbeddingRequest) (result : EmbeddingAnswer) : Prop where
  once : ∀ c ∈ request.chunks, (result.vectors.map fun v => v.chunkId).count c.chunkId = 1
  asked : ∀ v ∈ result.vectors, ∃ c ∈ request.chunks, v.chunkId = c.chunkId ∧
    v.contentDigest = c.contentDigest ∧ v.dimensions = request.spec.dimensions
  fence : result.fenceToken = request.fenceToken
  digest : result.requestDigest = request.requestDigest

/-- A vector that was looked up is one of a chunk of the request. -/
theorem Expected.mem {request : EmbeddingRequest} {v : EmbeddingVector} (h : Expected request v) :
    ∃ c ∈ request.chunks, v.chunkId = c.chunkId ∧ v.contentDigest = c.contentDigest ∧
      v.dimensions = request.spec.dimensions := by
  obtain ⟨c, hc, hdigest, hdimensions⟩ := h
  have hfind : request.chunks.reverse.find? (fun c => decide (c.chunkId = v.chunkId)) = some c := hc
  have hfound := List.find?_some hfind
  have hid : c.chunkId = v.chunkId := of_decide_eq_true hfound
  exact ⟨c, List.mem_reverse.mp (List.mem_of_find?_eq_some hfind), hid.symm, hdigest, hdimensions⟩

/-- **Of as many items as there are keys, each a key, every key occurs once exactly when no item occurs
    twice.** -/
theorem once_iff_nodup {α : Type} [DecidableEq α] [BEq α] [LawfulBEq α] {keys items : List α}
    (hcount : items.length = keys.dedup.length) (hkeys : ∀ a ∈ items, a ∈ keys) :
    (∀ k ∈ keys, items.count k = 1) ↔ items.Nodup := by
  constructor
  · intro honce
    refine List.nodup_iff_count_le_one.mpr fun a => ?_
    by_cases ha : a ∈ items
    · rw [honce a (hkeys a ha)]
    · rw [List.count_eq_zero_of_not_mem ha]
      exact Nat.zero_le 1
  · intro hnodup k hk
    have hsub : items.Subperm keys.dedup :=
      List.subperm_of_subset hnodup fun a ha => List.mem_dedup.mpr (hkeys a ha)
    have hperm : items.Perm keys.dedup := hsub.perm_of_length_le (le_of_eq hcount.symm)
    rw [hperm.count_eq, List.count_eq_one_of_mem (List.nodup_dedup keys) (List.mem_dedup.mpr hk)]

/-- **A checked answer is complete exactly when its vectors are of distinct chunks.** -/
theorem complete_iff {request : EmbeddingRequest} {result : EmbeddingAnswer} (h : Checked request result) :
    Complete request result ↔ (result.vectors.map fun v => v.chunkId).Nodup := by
  have hkeys : ∀ i ∈ result.vectors.map (fun v => v.chunkId),
      i ∈ request.chunks.map fun c => c.chunkId := by
    intro i hi
    obtain ⟨v, hv, rfl⟩ := List.mem_map.mp hi
    obtain ⟨c, hc, hid, -⟩ := (h.vectors v hv).mem
    exact List.mem_map.mpr ⟨c, hc, hid.symm⟩
  have hiff := once_iff_nodup (by rw [List.length_map]; exact h.count) hkeys
  constructor
  · intro hcomplete
    refine hiff.mp fun k hk => ?_
    obtain ⟨c, hc, rfl⟩ := List.mem_map.mp hk
    exact hcomplete.once c hc
  · intro hnodup
    refine ⟨fun c hc => ?_, fun v hv => (h.vectors v hv).mem, h.fence, h.digest⟩
    exact hiff.mpr hnodup _ (List.mem_map.mpr ⟨c, hc, rfl⟩)

/-! ## Omitted chunks -/

def omittedChunk : Error := ⟨.integrityFailure, "embedding result omitted a chunk"⟩

/-- `ingest` never finds a chunk of the request without a vector, wherever and whenever it indexes. -/
def NeverOmitted (sha : Sha256) (request : EmbeddingRequest) (vectors : List EmbeddingVector) : Prop :=
  ∀ record version spec chunks, ingestRequest sha record version spec chunks = .ok request →
    ∀ indexedAt s, (Exec.forEach chunks (indexChunk record vectors indexedAt) s).1 ≠ .error omittedChunk

theorem ingestRequest_chunks {record : MemoryRecord} {version : Nat} {spec : EmbeddingSpec}
    {chunks : List MemoryChunk} {request : EmbeddingRequest}
    (h : ingestRequest sha record version spec chunks = .ok request) : request.chunks = chunks := by
  unfold ingestRequest buildRequest at h
  dsimp only at h
  split at h
  · split at h
    · split at h
      · rw [← Except.ok.inj h]
      · cases h
    · cases h
  · cases h

/-- A vector of the chunk is found. -/
theorem vectorOf_isSome {vectors : List EmbeddingVector} {chunkId : Identifier}
    (h : chunkId ∈ vectors.map fun v => v.chunkId) : ∃ v, vectorOf vectors chunkId = some v := by
  obtain ⟨v, hv, hid⟩ := List.mem_map.mp h
  refine Option.isSome_iff_exists.mp (List.find?_isSome.mpr ⟨v, List.mem_reverse.mpr hv, ?_⟩)
  exact decide_eq_true hid

/-- **With a complete answer no chunk is omitted.** -/
theorem Complete.neverOmitted {request : EmbeddingRequest} {result : EmbeddingAnswer}
    (h : Complete request result) : NeverOmitted sha request result.vectors := by
  intro record version spec chunks hrequest indexedAt s
  have hchunks := ingestRequest_chunks hrequest
  have hsat : Exec.Sat (Exec.forEach chunks (indexChunk record result.vectors indexedAt)) s
      (fun _ _ => True) (fun e _ => e ≠ omittedChunk) := by
    refine Exec.Sat.forEach (I := fun _ => True) (fun c hc s' _ => ?_) s trivial
    have hmem : c.chunkId ∈ result.vectors.map fun v => v.chunkId := by
      refine List.count_pos_iff.mp ?_
      rw [h.once c (hchunks ▸ hc)]
      exact Nat.one_pos
    obtain ⟨v, hv⟩ := vectorOf_isSome hmem
    unfold indexChunk
    rw [hv]
    exact Exec.Sat.check (fun _ => by decide) fun _ => trivial
  intro herror
  exact hsat.error (Prod.ext herror rfl) rfl

/-- **When what `embed` returns is complete**, and an ingestion of it omits no chunk: when the adapter gives
    no chunk two vectors. -/
theorem embedding_complete_iff {index : Nat} {answer : Except Error EmbeddingAnswer} {time : Datetime}
    {s s' : State} {result : EmbeddingAnswer}
    (h : finish sha config exceeded index answer time s = (.ok (some result), s')) :
    ∃ call given, s.started[index]? = some call ∧ answer = .ok given ∧
      (Complete call.request result ∧ NeverOmitted sha call.request result.vectors ↔
        (given.vectors.map fun v => v.chunkId).Nodup) := by
  obtain ⟨call, hcall, hanswer, hchecked⟩ := finish_checked h
  refine ⟨call, result, hcall, hanswer, ?_⟩
  rw [← complete_iff hchecked]
  exact ⟨fun hboth => hboth.1, fun hcomplete => ⟨hcomplete, hcomplete.neverOmitted⟩⟩

/-! ## A case -/

/-- An answer that passes the checks in time is passed on. -/
theorem finish_passes (sha : Sha256) (config : Config) (exceeded : Int → FloatText → Bool) {index : Nat}
    {call : Started} {result : EmbeddingAnswer} {time : Datetime} {s : State}
    (hcall : s.started[index]? = some call)
    (htime : exceeded (time.instant - call.admittedAt.instant) call.request.spec.timeoutSeconds = false)
    (hchecked : Checked call.request result) :
    ∃ s', finish sha config exceeded index (.ok result) time s = (.ok (some result), s') := by
  have hsettle : ∃ s₁, settle sha config exceeded call (.ok result) time s = (.ok result, s₁) := by
    unfold settle
    dsimp only
    rw [Exec.require_pos htime, Exec.require_pos ⟨hchecked.count, hchecked.fence, hchecked.digest⟩,
      Exec.require_pos hchecked.vectors]
    exact ⟨_, rfl⟩
  obtain ⟨s₁, hsettle⟩ := hsettle
  have hreify : Exec.reify (settle sha config exceeded call (.ok result) time) s = (.ok (.ok result), s₁) := by
    rw [Exec.reify, hsettle]
  unfold finish
  have hread : (Exec.read : Action State) s = (.ok s, s) := rfl
  rw [Exec.bind_returns hread, hcall]
  dsimp only
  rw [Exec.bind_returns hreify]
  exact ⟨_, rfl⟩

end

/-- Two chunks of one memory, and a spec that takes both. -/
def caseChunk (chunkId : Identifier) (ordinal : Nat) : MemoryChunk where
  chunkId := chunkId
  memoryId := sampleRecord.memoryId
  tenantId := sampleRecord.tenantId
  ordinal := ordinal
  text := "text"
  contentDigest := zeroHash
  tokenEstimate := 1
  byteCount := 4
  citation := sampleRecord.citation
  chunkerVersion := sampleRecord.chunkerVersion

def firstChunk : MemoryChunk := caseChunk ⟨"c0", by decide⟩ 0

def secondChunk : MemoryChunk := caseChunk ⟨"c1", by decide⟩ 1

def caseSpec : EmbeddingSpec := { sampleSpec with maximumBatchItems := 2, maximumBatchTokens := 2 }

def caseConfig : Config where
  maximumConcurrency := 1
  maximumCalls := 1
  rateLimit := 1
  circuitThreshold := 1
  circuitSeconds := 1
  concurrency_ok := by decide
  calls_ok := by decide
  rate_ok := by decide
  circuit_ok := by decide

/-- The vector of a chunk, and an answer to a request. -/
def vectorFor (chunk : MemoryChunk) : EmbeddingVector := ⟨chunk.chunkId, chunk.contentDigest, 2⟩

def answerTo (request : EmbeddingRequest) (chunks : List MemoryChunk) : EmbeddingAnswer where
  vectors := chunks.map vectorFor
  resultDigest := zeroHash
  requestDigest := request.requestDigest
  fenceToken := request.fenceToken

theorem case_request (sha : Sha256) : ∃ request,
    ingestRequest sha sampleRecord 7 caseSpec [firstChunk, secondChunk] = .ok request ∧
      request.chunks = [firstChunk, secondChunk] ∧ request.spec = caseSpec := by
  unfold ingestRequest buildRequest
  dsimp only
  rw [dif_pos (by decide), dif_pos (by decide), dif_pos (by decide)]
  exact ⟨_, rfl, rfl, rfl⟩

/-- An answer of two vectors, each of one of the chunks. -/
theorem case_checked (chunks : List MemoryChunk) {request : EmbeddingRequest}
    (hchunks : request.chunks = [firstChunk, secondChunk]) (hspec : request.spec = caseSpec)
    (hlength : chunks.length = 2) (hgiven : ∀ c ∈ chunks, c = firstChunk ∨ c = secondChunk) :
    Checked request (answerTo request chunks) where
  count := by
    rw [hchunks, answerTo, List.length_map, hlength]
    decide
  fence := rfl
  digest := rfl
  vectors := by
    intro v hv
    obtain ⟨c, hc, rfl⟩ := List.mem_map.mp hv
    unfold Expected expected
    rw [hchunks, hspec]
    rcases hgiven c hc with rfl | rfl
    · exact ⟨firstChunk, rfl, rfl, rfl⟩
    · exact ⟨secondChunk, rfl, rfl, rfl⟩

/-- A new gateway starts the call of a request at once. -/
theorem case_started (sha : Sha256) (request : EmbeddingRequest) : ∃ s,
    start sha caseConfig request ⟨0, 0⟩ (State.new caseConfig) = (.ok (), s) ∧
      s.started[0]? = some ⟨request, ⟨0, 0⟩⟩ := ⟨_, rfl, rfl⟩

/-- An answer with a vector for each chunk is complete. -/
theorem embedding_complete_sample : ∃ request s s',
    start (.table []) caseConfig request ⟨0, 0⟩ (State.new caseConfig) = (.ok (), s) ∧
      finish (.table []) caseConfig (fun _ _ => false) 0
        (.ok (answerTo request [secondChunk, firstChunk])) ⟨0, 0⟩ s =
          (.ok (some (answerTo request [secondChunk, firstChunk])), s') ∧
      ∃ call given, s.started[0]? = some call ∧
        Except.ok (answerTo request [secondChunk, firstChunk]) = (.ok given : Except Error EmbeddingAnswer) ∧
        (Complete call.request (answerTo request [secondChunk, firstChunk]) ∧
          NeverOmitted (.table []) call.request (answerTo request [secondChunk, firstChunk]).vectors ↔
          (given.vectors.map fun v => v.chunkId).Nodup) := by
  obtain ⟨request, -, hchunks, hspec⟩ := case_request (.table [])
  obtain ⟨s, hstart, hstarted⟩ := case_started (.table []) request
  have hchecked := case_checked [secondChunk, firstChunk] hchunks hspec rfl (by simp)
  obtain ⟨s', hfinish⟩ := finish_passes (.table []) caseConfig (fun _ _ => false) hstarted rfl hchecked
  exact ⟨request, s, s', hstart, hfinish, embedding_complete_iff hfinish⟩

/-- **A vector given twice stands in for a missing one**: the gateway passes the answer on, and an ingestion
    with it omits a chunk. -/
theorem duplicate_vector_accepted : ∃ request s s',
    ingestRequest (.table []) sampleRecord 7 caseSpec [firstChunk, secondChunk] = .ok request ∧
      start (.table []) caseConfig request ⟨0, 0⟩ (State.new caseConfig) = (.ok (), s) ∧
      finish (.table []) caseConfig (fun _ _ => false) 0
        (.ok (answerTo request [secondChunk, secondChunk])) ⟨0, 0⟩ s =
          (.ok (some (answerTo request [secondChunk, secondChunk])), s') ∧
      ¬Complete request (answerTo request [secondChunk, secondChunk]) ∧
      (Exec.forEach [firstChunk, secondChunk] (indexChunk sampleRecord
        (answerTo request [secondChunk, secondChunk]).vectors ⟨0, 0⟩) Memory.State.start).1 =
          .error omittedChunk := by
  obtain ⟨request, hrequest, hchunks, hspec⟩ := case_request (.table [])
  obtain ⟨s, hstart, hstarted⟩ := case_started (.table []) request
  have hchecked := case_checked [secondChunk, secondChunk] hchunks hspec rfl (by simp)
  obtain ⟨s', hfinish⟩ := finish_passes (.table []) caseConfig (fun _ _ => false) hstarted rfl hchecked
  refine ⟨request, s, s', hrequest, hstart, hfinish, fun hcomplete => ?_, rfl⟩
  have hnodup := (complete_iff hchecked).mp hcomplete
  exact (List.nodup_cons.mp hnodup).1 List.mem_cons_self

end Embedding

end Memory

end Aegis
