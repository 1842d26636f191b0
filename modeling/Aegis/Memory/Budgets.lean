/-
  THE BUDGETS OF A RETRIEVAL.

  The drawn items are distinct chunks of the candidates, since an index holds a chunk of a tenant once and
  a draw takes each item once; of these the admitted ones keep the numbers of the policy
  (`compute_within`).

  A cached result was within the policy of the query it was computed for.  The two queries have one cache
  key, so their policies have the same numbers (`policy_of_cacheKey`).
-/
import Mathlib
import Aegis.Memory.Hits

namespace Aegis

namespace Memory

variable {V S K : Type}

section

variable [DecidableEq S] [LinearOrder K] {sha : Sha256} {unicode : Unicode}
  {attributes : MemoryRecord → RecordAttributes} {ranking : Ranking V S K}

/-! ## Budgets of a retrieval -/

/-- Hits that a policy allows: distinct chunks, each of the pool, within its numbers. -/
structure WithinPolicy (policy : RetrievalPolicy) (pool : List (Scored S)) (hits : List (RetrievalHit S)) :
    Prop where
  distinct : (hits.map fun hit => hit.chunkId).Nodup
  drawn : ∀ hit ∈ hits, ∃ p ∈ pool, hit.plain = p.2
  count : hits.length ≤ policy.topK
  tokens : (hits.map fun hit => tokenEstimate hit.text.toList).sum ≤ policy.maximumTokens
  bytes : (hits.map fun hit => Text.byteLength hit.text.toList).sum ≤ policy.maximumBytes

/-- The numbers of a policy that a retrieval keeps to. -/
def RetrievalPolicy.numbers (p : RetrievalPolicy) : List Nat :=
  [p.maximumCandidates, p.topK, p.maximumTokens, p.maximumBytes]

omit [DecidableEq S] [LinearOrder K] in
theorem WithinPolicy.of_numbers {policy policy' : RetrievalPolicy} {pool : List (Scored S)}
    {hits : List (RetrievalHit S)} (h : WithinPolicy policy pool hits)
    (hnumbers : policy.numbers = policy'.numbers) : WithinPolicy policy' pool hits := by
  simp only [RetrievalPolicy.numbers, List.cons.injEq, and_true] at hnumbers
  obtain ⟨-, htop, htokens, hbytes⟩ := hnumbers
  exact ⟨h.distinct, h.drawn, htop ▸ h.count, htokens ▸ h.tokens, hbytes ▸ h.bytes⟩

omit [DecidableEq S] [LinearOrder K] in
/-- The items of a tenant are distinct chunks. -/
theorem scored_distinct {items : IndexItems} (h : Content sha items) (query : RetrievalQuery)
    (vector : List V) :
    ((scoredItems attributes query vector (itemsOf items)).map fun item => item.chunk.chunkId).Nodup := by
  unfold scoredItems itemsOf
  rw [List.filter_map, List.map_map, List.Nodup, List.pairwise_map]
  have hkeys : items.entries.Pairwise fun a b => a.1 ≠ b.1 := List.nodupKeys_iff_pairwise.mp items.nodupKeys
  refine (hkeys.filter _).imp_of_mem fun {a b} ha hb hne heq => hne ?_
  have htenant : ∀ e ∈ items.entries.filter ((fun item => eligible attributes query item
      && decide (item.vector.dimensions = vector.length)) ∘ fun e => e.2),
      e ∈ items.entries ∧ e.2.record.tenantId = query.tenantId := by
    intro e he
    obtain ⟨hmem, heligible⟩ := List.mem_filter.mp he
    refine ⟨hmem, ?_⟩
    simp only [Function.comp_apply, eligible, Bool.and_eq_true, decide_eq_true_eq] at heligible
    tauto
  obtain ⟨hamem, hatenant⟩ := htenant a ha
  obtain ⟨hbmem, hbtenant⟩ := htenant b hb
  rw [h.keyed a hamem, h.keyed b hbmem, hatenant, hbtenant]
  exact congrArg (fun i : Identifier => (query.tenantId.val, i.val)) heq

theorem selected_distinct {items : IndexItems} (h : Content sha items) (query : RetrievalQuery)
    (vector : List V) :
    ((selectedOf attributes ranking query vector (itemsOf items)).map fun p => p.1.chunk.chunkId).Nodup := by
  have hdrawn : (selectedOf attributes ranking query vector (itemsOf items)).Subperm
      (candidatesOf attributes ranking query vector (itemsOf items)) := mmr_subperm query.policy _
  obtain ⟨drawn, hperm, hsub⟩ := hdrawn.trans (candidates_subperm _)
  have hnodup : (drawn.map fun p : Scored S => p.1.chunk.chunkId).Nodup := by
    refine (hsub.map _).nodup ?_
    rw [List.map_map]
    exact scored_distinct h query vector
  exact (hperm.map _).nodup_iff.mp hnodup

omit [DecidableEq S] [LinearOrder K] in
/-- The hits of a pass show what the kept items show, but for their marks. -/
theorem Tracks.map_view {kept : List (Scored S)} {g : Gathered S} {query : RetrievalQuery}
    (h : Tracks sha unicode query kept g) {α : Type} {view : RetrievalHit S → α} {weight : Scored S → α}
    (hview : ∀ hit, view hit.plain = view hit) (hweight : ∀ p ∈ kept, weight p = view p.2) :
    g.hits.map view = kept.map weight := by
  have hmap := congrArg (List.map view) h.hits
  rw [List.map_map, List.map_map] at hmap
  have hhits : g.hits.map view = g.hits.map (view ∘ RetrievalHit.plain) :=
    List.map_congr_left fun hit _ => (hview hit).symm
  rw [hhits, hmap]
  exact List.map_congr_left fun p hp => (hweight p hp).symm

omit [DecidableEq S] [LinearOrder K] in
theorem fitsPolicy_spec {policy : RetrievalPolicy} {kept : List (Scored S)} {p : Scored S}
    (h : fitsPolicy policy kept p = true) : kept.length < policy.topK
      ∧ (kept.map fun q => q.1.chunk.tokenEstimate).sum + p.1.chunk.tokenEstimate ≤ policy.maximumTokens
      ∧ (kept.map fun q => q.1.chunk.byteCount).sum + p.1.chunk.byteCount ≤ policy.maximumBytes :=
  of_decide_eq_true h

omit [DecidableEq S] [LinearOrder K] in
theorem admitted_length (policy : RetrievalPolicy) (selected : List (Scored S)) :
    (admitted policy selected).length ≤ policy.topK := by
  refine Selection.pick_induct (fun kept => kept.length ≤ policy.topK) (fun kept p _ h => ?_) selected
    (Nat.zero_le _)
  rw [List.length_append, List.length_singleton]
  exact (fitsPolicy_spec h).1

/-- **A computed result is within the policy of its query.** -/
theorem compute_within {query : RetrievalQuery} {vector : List V} {items : IndexItems}
    (hcontent : Content sha items) {result : RetrievalResult S}
    (h : compute sha unicode attributes ranking query vector (itemsOf items) = .ok result) :
    WithinPolicy query.policy (candidatesOf attributes ranking query vector (itemsOf items))
      result.hits := by
  obtain ⟨g, htracks, rfl⟩ := compute_tracks hcontent.valid_items h
  generalize hselected : selectedOf attributes ranking query vector (itemsOf items) = selected at htracks
  have hsub : (admitted query.policy selected).Sublist selected := Selection.pick_sublist _ _
  have hhit : ∀ p ∈ admitted query.policy selected, p.2 = hitOf ranking query vector p.1 ∧
      ValidChunk sha p.1.chunk := by
    intro p hp
    have hgenuine := genuine_of_mem (hselected ▸ hsub.subset hp)
    exact ⟨hgenuine.2, hcontent.valid_items _ (List.mem_of_mem_filter hgenuine.1)⟩
  refine ⟨?_, fun hit hmem => ?_, ?_, ?_, ?_⟩
  · show (g.hits.map fun hit => hit.chunkId).Nodup
    have hids : g.hits.map (fun hit => hit.chunkId) =
        (admitted query.policy selected).map fun p => p.1.chunk.chunkId :=
      htracks.map_view (fun _ => rfl) fun p hp => by rw [(hhit p hp).1]; rfl
    rw [hids]
    refine (hsub.map _).nodup ?_
    rw [← hselected]
    exact selected_distinct hcontent query vector
  · have hplain : hit.plain ∈ g.hits.map RetrievalHit.plain := List.mem_map.mpr ⟨hit, hmem, rfl⟩
    rw [htracks.hits] at hplain
    obtain ⟨p, hp, heq⟩ := List.mem_map.mp hplain
    have hdrawn : (selectedOf attributes ranking query vector (itemsOf items)).Subperm
        (candidatesOf attributes ranking query vector (itemsOf items)) := mmr_subperm query.policy _
    exact ⟨p, hdrawn.subset (hselected ▸ hsub.subset hp), heq.symm⟩
  · show g.hits.length ≤ query.policy.topK
    have hlen := congrArg List.length htracks.hits
    rw [List.length_map, List.length_map] at hlen
    rw [hlen]
    exact admitted_length query.policy selected
  · show (g.hits.map fun hit => tokenEstimate hit.text.toList).sum ≤ query.policy.maximumTokens
    have htokens : g.hits.map (fun hit => tokenEstimate hit.text.toList) =
        (admitted query.policy selected).map fun p => p.1.chunk.tokenEstimate :=
      htracks.map_view (fun _ => rfl) fun p hp => by rw [(hhit p hp).2.tokens, (hhit p hp).1]; rfl
    rw [htokens]
    exact Selection.pick_sum_le (fun kept p hfits => (fitsPolicy_spec hfits).2.1) selected
  · show (g.hits.map fun hit => Text.byteLength hit.text.toList).sum ≤ query.policy.maximumBytes
    have hbytes : g.hits.map (fun hit => Text.byteLength hit.text.toList) =
        (admitted query.policy selected).map fun p => p.1.chunk.byteCount :=
      htracks.map_view (fun _ => rfl) fun p hp => by rw [(hhit p hp).2.bytes, (hhit p hp).1]; rfl
    rw [hbytes]
    exact Selection.pick_sum_le (fun kept p hfits => (fitsPolicy_spec hfits).2.2) selected

/-! ## Cached results -/

/-- The texts that tell the policies of a query and of the retrievals of a run apart. -/
def policyTexts (sha : Sha256) (queries : RetrievalQuery → Prop) : Set String :=
  {x | ∃ query, queries query ∧
    (x = canonicalJson (cacheMaterial sha query) ∨ x = canonicalJson query.policy.modelDump)}

theorem RetrievalPolicy.numbers_of_dump {p p' : RetrievalPolicy} (h : p.modelDump.Same p'.modelDump) :
    p.numbers = p'.numbers := by
  unfold modelDump at h
  have hfield := fun k (a b : Nat) => h.nat_field (a := a) (b := b)
    (by simp only [List.map_cons, List.map_nil]; decide) k
  unfold numbers
  rw [hfield "maximum_candidates" p.maximumCandidates p'.maximumCandidates (by simp) (by simp),
    hfield "top_k" p.topK p'.topK (by simp) (by simp),
    hfield "maximum_tokens" p.maximumTokens p'.maximumTokens (by simp) (by simp),
    hfield "maximum_bytes" p.maximumBytes p'.maximumBytes (by simp) (by simp)]

omit [DecidableEq S] [LinearOrder K] in
/-- Queries with one cache key have policies with the same numbers. -/
theorem policy_of_cacheKey {queries : RetrievalQuery → Prop}
    (hfree : sha.CollisionFree (policyTexts sha queries)) {query query' : RetrievalQuery}
    (h : queries query) (h' : queries query') (hkey : cacheKey sha query = cacheKey sha query') :
    query.policy.numbers = query'.policy.numbers := by
  have hmaterial : (cacheMaterial sha query).Same (cacheMaterial sha query') :=
    canonicalJson_inj.mp (hfree.hexdigest ⟨query, h, .inl rfl⟩ ⟨query', h', .inl rfl⟩
      (Prod.mk.inj (Prod.mk.inj hkey).2).2)
  have hdigest : query.policy.digest sha = query'.policy.digest sha := by
    refine Subtype.ext (Json.same_str.mp (hmaterial.field ?_ List.mem_cons_self List.mem_cons_self))
    simp only [List.map_cons, List.map_nil]
    decide
  exact RetrievalPolicy.numbers_of_dump (canonicalJson_inj.mp
    (hfree.hexdigest ⟨query, h, .inr rfl⟩ ⟨query', h', .inr rfl⟩ hdigest))

end

end Memory

end Aegis
