/-
  WHAT A RETRIEVAL RETURNS.

  The items that become hits are the ones `admitted` keeps: of the drawn items, in the order drawn, those
  that fit the budgets.  The pass over them (`gather`) is followed by `Tracks`: its hits are the admitted
  ones up to their marks, its totals are their sums, and for each claim the marks are those of a pass that
  remembers the last digest (`Marks.Marked`).
-/
import Mathlib
import Aegis.Lib.Marks
import Aegis.Memory.Retrieval

namespace Aegis

namespace Memory

open Evidence (DataClassification)

variable {V S K : Type}

/-! ## Valid chunks -/

/-- `MemoryChunk.validate_content`, and the bounds of its text. -/
structure ValidChunk (sha : Sha256) (chunk : MemoryChunk) : Prop where
  digest : chunk.contentDigest = sha.hexdigest chunk.text
  bytes : chunk.byteCount = Text.byteLength chunk.text.toList
  tokens : chunk.tokenEstimate = tokenEstimate chunk.text.toList
  bounded : 1 ≤ chunk.text.toList.length ∧ chunk.text.toList.length ≤ maxMemoryText

theorem chunkOf_valid {sha : Sha256} {tenant memory : Identifier} {citation : MemoryCitation}
    {ordinal : Nat} {part : List Char} (h : Fits part) :
    ValidChunk sha (chunkOf sha tenant memory citation ordinal part) := by
  have htext : (chunkOf sha tenant memory citation ordinal part).text.toList = part :=
    String.toList_ofList
  refine ⟨rfl, ?_, ?_, ?_⟩
  · rw [htext]
    rfl
  · rw [htext]
    rfl
  · rw [htext]
    exact ⟨List.length_pos_iff.mpr h.1, h.2.1⟩

section

variable {sha : Sha256} {unicode : Unicode} {attributes : MemoryRecord → RecordAttributes}
  {ranking : Ranking V S K}

/-! ## Ranking -/

theorem foldl_choice_mem {α : Type} (f : α → α → Bool) (xs : List α) (a : α) :
    xs.foldl (fun most q => if f q most = true then q else most) a ∈ a :: xs := by
  induction xs generalizing a with
  | nil => exact List.mem_cons_self
  | cons x xs ih =>
    rw [List.foldl_cons]
    split
    · exact List.mem_cons_of_mem _ (ih x)
    · rcases List.mem_cons.mp (ih a) with h | h
      · rw [h]
        exact List.mem_cons_self
      · exact List.mem_cons_of_mem _ (List.mem_cons_of_mem _ h)

theorem best_mem [LinearOrder K] {policy : RetrievalPolicy} (selected remaining : List (Scored S)) (p : Scored S)
    (h : best ranking policy selected remaining = some p) : p ∈ remaining := by
  cases remaining with
  | nil => cases h
  | cons q rest =>
    rw [← Option.some.inj h]
    exact foldl_choice_mem _ rest q

theorem mmr_subperm [DecidableEq S] [LinearOrder K] (policy : RetrievalPolicy) (pool : List (Scored S)) :
    (mmr ranking policy pool).Subperm pool :=
  Selection.draw_subperm best_mem policy.topK pool

/-- The scored items of a query, when no text raises. -/
theorem mapM_score {query : RetrievalQuery} {vector : List V} {items : List IndexedChunk}
    {scored : List (Scored S)} (h : items.mapM (score unicode ranking query vector) = .ok scored) :
    scored = items.map fun item => (item, hitOf ranking query vector item) := by
  induction items generalizing scored with
  | nil => exact (Except.ok.inj h).symm
  | cons item items ih =>
    rw [List.mapM_cons] at h
    obtain ⟨p, hp, h⟩ := except_bind_ok.mp h
    obtain ⟨rest, hrest, h⟩ := except_bind_ok.mp h
    obtain ⟨_, -, hp⟩ := except_bind_ok.mp hp
    rw [← Except.ok.inj h, ← Except.ok.inj hp, ih hrest]
    rfl

/-- The first `maximum_candidates` scored items of an index. -/
def candidatesOf [LinearOrder K] (attributes : MemoryRecord → RecordAttributes) (ranking : Ranking V S K)
    (query : RetrievalQuery) (vector : List V) (items : List IndexedChunk) : List (Scored S) :=
  candidates ranking query ((scoredItems attributes query vector items).map fun item =>
    (item, hitOf ranking query vector item))

/-- The items that are drawn, in order. -/
def selectedOf [DecidableEq S] [LinearOrder K] (attributes : MemoryRecord → RecordAttributes) (ranking : Ranking V S K)
    (query : RetrievalQuery) (vector : List V) (items : List IndexedChunk) : List (Scored S) :=
  mmr ranking query.policy (candidatesOf attributes ranking query vector items)

theorem compute_ok [DecidableEq S] [LinearOrder K] {query : RetrievalQuery} {vector : List V} {items : List IndexedChunk}
    {result : RetrievalResult S}
    (h : compute sha unicode attributes ranking query vector items = .ok result) :
    result = RetrievalResult.of sha ranking query
      (candidatesOf attributes ranking query vector items).length
      ((selectedOf attributes ranking query vector items).foldl (gather sha unicode query)
        (Gathered.start S)) := by
  obtain ⟨_, -, h⟩ := except_bind_ok.mp h
  obtain ⟨scored, hscored, h⟩ := except_bind_ok.mp h
  rw [← Except.ok.inj h, mapM_score hscored]
  rfl

/-- An item of the index with its own hit. -/
def Genuine (query : RetrievalQuery) (vector : List V) (ranking : Ranking V S K)
    (items : List IndexedChunk) (p : Scored S) : Prop :=
  p.1 ∈ items ∧ p.2 = hitOf ranking query vector p.1

theorem candidates_subperm [LinearOrder K] {query : RetrievalQuery} (scored : List (Scored S)) :
    (candidates ranking query scored).Subperm scored :=
  (List.take_sublist _ _).subperm.trans (List.perm_insertionSort _ scored).subperm

theorem genuine_of_mem [DecidableEq S] [LinearOrder K] {query : RetrievalQuery} {vector : List V} {items : List IndexedChunk}
    {p : Scored S} (h : p ∈ selectedOf attributes ranking query vector items) :
    Genuine query vector ranking (scoredItems attributes query vector items) p := by
  have hmem := (candidates_subperm _).subset ((mmr_subperm query.policy _).subset h)
  obtain ⟨item, hitem, rfl⟩ := List.mem_map.mp hmem
  exact ⟨hitem, rfl⟩

/-! ## The pass over the selected items -/

/-- A hit without its mark. -/
def RetrievalHit.plain (hit : RetrievalHit S) : RetrievalHit S := { hit with contradictionGroup := none }

/-- The item fits the budgets beside the ones kept. -/
def fitsPolicy (policy : RetrievalPolicy) (kept : List (Scored S)) (p : Scored S) : Bool :=
  decide (kept.length < policy.topK
    ∧ (kept.map fun q => q.1.chunk.tokenEstimate).sum + p.1.chunk.tokenEstimate ≤ policy.maximumTokens
    ∧ (kept.map fun q => q.1.chunk.byteCount).sum + p.1.chunk.byteCount ≤ policy.maximumBytes)

/-- The items that become hits. -/
def admitted (policy : RetrievalPolicy) (selected : List (Scored S)) : List (Scored S) :=
  Selection.pick (fitsPolicy policy) [] selected

/-- The digest of the text of a hit. -/
def RetrievalHit.digest (sha : Sha256) (hit : RetrievalHit S) : Digest := sha.hexdigest hit.text

/-- The pass has kept these items. -/
structure Tracks (sha : Sha256) (unicode : Unicode) (query : RetrievalQuery) (kept : List (Scored S))
    (g : Gathered S) : Prop where
  hits : g.hits.map RetrievalHit.plain = kept.map fun p => p.2
  tokens : g.tokens = (kept.map fun p => p.1.chunk.tokenEstimate).sum
  bytes : g.byteCount = (kept.map fun p => p.1.chunk.byteCount).sum
  marks : ∀ key, Marks.Marked (RetrievalHit.digest sha) RetrievalHit.contradictionGroup
    (contradictionGroup sha query.tenantId key) (g.seenClaims key)
    (g.hits.filter fun hit => decide (claimKey unicode hit.text = key))

theorem tracks_start (query : RetrievalQuery) : Tracks sha unicode query [] (Gathered.start S) :=
  ⟨rfl, rfl, rfl, fun _ => Marks.marked_nil⟩

/-- The hit of a valid chunk, not marked. -/
structure Plain (sha : Sha256) (p : Scored S) : Prop where
  text : p.2.text = p.1.chunk.text
  mark : p.2.contradictionGroup = none
  digest : p.1.chunk.contentDigest = sha.hexdigest p.1.chunk.text

theorem gather_skips {query : RetrievalQuery} {kept : List (Scored S)} {g : Gathered S} {p : Scored S}
    (h : Tracks sha unicode query kept g) (hfits : fitsPolicy query.policy kept p = false) :
    gather sha unicode query g p = g := by
  have hlen : g.hits.length = kept.length := by
    have := congrArg List.length h.hits
    rwa [List.length_map, List.length_map] at this
  refine if_pos ?_
  rw [hlen, h.tokens, h.bytes]
  have hno := of_decide_eq_false hfits
  by_contra hall
  obtain ⟨htop, hrest⟩ := not_or.mp hall
  obtain ⟨htokens, hbytes⟩ := not_or.mp hrest
  exact hno ⟨by omega, by omega, by omega⟩

/-- What a turn that keeps its item makes of the hits before it. -/
def keep (unicode : Unicode) (g : Gathered S) (p : Scored S) (contradiction : Option Identifier)
    (hits : List (RetrievalHit S)) : Gathered S where
  hits := hits ++ [{ p.2 with contradictionGroup := contradiction }]
  tokens := g.tokens + p.1.chunk.tokenEstimate
  byteCount := g.byteCount + p.1.chunk.byteCount
  seenClaims := Function.update g.seenClaims (claimKey unicode p.1.chunk.text)
    (some p.1.chunk.contentDigest)

@[simp] theorem keep_hits (g : Gathered S) (p : Scored S) (c : Option Identifier)
    (hits : List (RetrievalHit S)) :
    (keep unicode g p c hits).hits = hits ++ [{ p.2 with contradictionGroup := c }] := rfl

@[simp] theorem keep_tokens (g : Gathered S) (p : Scored S) (c : Option Identifier)
    (hits : List (RetrievalHit S)) :
    (keep unicode g p c hits).tokens = g.tokens + p.1.chunk.tokenEstimate := rfl

@[simp] theorem keep_byteCount (g : Gathered S) (p : Scored S) (c : Option Identifier)
    (hits : List (RetrievalHit S)) :
    (keep unicode g p c hits).byteCount = g.byteCount + p.1.chunk.byteCount := rfl

@[simp] theorem keep_seenClaims (g : Gathered S) (p : Scored S) (c : Option Identifier)
    (hits : List (RetrievalHit S)) : (keep unicode g p c hits).seenClaims =
      Function.update g.seenClaims (claimKey unicode p.1.chunk.text) (some p.1.chunk.contentDigest) := rfl

/-- A hit on a claim, marked. -/
def markClaim (unicode : Unicode) (key : String) (group : Option Identifier) (hit : RetrievalHit S) :
    RetrievalHit S :=
  if claimKey unicode hit.text = key then { hit with contradictionGroup := group } else hit

theorem markClaim_plain (key : String) (group : Option Identifier) (hit : RetrievalHit S) :
    (markClaim unicode key group hit).plain = hit.plain := by
  unfold markClaim
  split <;> rfl

theorem markClaim_text (key : String) (group : Option Identifier) (hit : RetrievalHit S) :
    (markClaim unicode key group hit).text = hit.text := by
  unfold markClaim
  split <;> rfl

/-- An item that fits and agrees with the last hit on its claim becomes a hit that is not marked. -/
theorem gather_agrees {query : RetrievalQuery} {g : Gathered S} {p : Scored S}
    (hfits : ¬(query.policy.topK ≤ g.hits.length
      ∨ query.policy.maximumTokens < g.tokens + p.1.chunk.tokenEstimate
      ∨ query.policy.maximumBytes < g.byteCount + p.1.chunk.byteCount))
    (hseen : g.seenClaims (claimKey unicode p.1.chunk.text) = none
      ∨ g.seenClaims (claimKey unicode p.1.chunk.text) = some p.1.chunk.contentDigest) :
    gather sha unicode query g p = keep unicode g p none g.hits := by
  unfold gather keep
  dsimp only
  rw [if_neg hfits]
  rcases hseen with hseen | hseen
  · simp only [hseen, Option.isSome_none, Bool.false_eq_true, if_false]
  · simp only [hseen, ne_eq, not_true_eq_false, if_false, Option.isSome_none, Bool.false_eq_true]

/-- An item that fits and disagrees with it is marked, with all hits on the claim. -/
theorem gather_disagrees {query : RetrievalQuery} {g : Gathered S} {p : Scored S} {prior : Digest}
    (hfits : ¬(query.policy.topK ≤ g.hits.length
      ∨ query.policy.maximumTokens < g.tokens + p.1.chunk.tokenEstimate
      ∨ query.policy.maximumBytes < g.byteCount + p.1.chunk.byteCount))
    (hseen : g.seenClaims (claimKey unicode p.1.chunk.text) = some prior)
    (hprior : prior ≠ p.1.chunk.contentDigest) :
    gather sha unicode query g p =
      let key := claimKey unicode p.1.chunk.text
      let group := some (contradictionGroup sha query.tenantId key)
      keep unicode g p group (g.hits.map (markClaim unicode key group)) := by
  unfold gather keep
  dsimp only
  rw [if_neg hfits]
  simp only [hseen, ne_eq, hprior, not_false_eq_true, if_true, Option.isSome_some]
  rfl

/-- The hits on another claim stay as they are. -/
theorem filter_other {key other : String} (hne : other ≠ key) (group : Option Identifier)
    (hits : List (RetrievalHit S)) :
    (hits.map (markClaim unicode key group)).filter (fun hit => decide (claimKey unicode hit.text = other)) =
      hits.filter fun hit => decide (claimKey unicode hit.text = other) := by
  induction hits with
  | nil => rfl
  | cons hit hits ih =>
    rw [List.map_cons, List.filter_cons, List.filter_cons, ih, markClaim_text]
    split
    · rename_i hother
      rw [markClaim, if_neg]
      intro hkey
      exact hne ((of_decide_eq_true hother).symm.trans hkey)
    · rfl

/-- The hits on the claim are all marked. -/
theorem filter_claim {key : String} (group : Option Identifier) (hits : List (RetrievalHit S)) :
    (hits.map (markClaim unicode key group)).filter (fun hit => decide (claimKey unicode hit.text = key)) =
      (hits.filter fun hit => decide (claimKey unicode hit.text = key)).map fun hit =>
        { hit with contradictionGroup := group } := by
  induction hits with
  | nil => rfl
  | cons hit hits ih =>
    rw [List.map_cons, List.filter_cons, List.filter_cons, ih, markClaim_text]
    split
    · rename_i hkey
      rw [markClaim, if_pos (of_decide_eq_true hkey)]
      rfl
    · rfl

theorem filter_append_single {α : Type} (p : α → Bool) (xs : List α) (a : α) :
    (xs ++ [a]).filter p = if p a = true then xs.filter p ++ [a] else xs.filter p := by
  rw [List.filter_append, List.filter_cons, List.filter_nil]
  split
  · rfl
  · rw [List.append_nil]

/-- **A turn that keeps its item keeps what the pass tracks.** -/
theorem gather_keeps {query : RetrievalQuery} {kept : List (Scored S)} {g : Gathered S} {p : Scored S}
    (h : Tracks sha unicode query kept g) (hp : Plain sha p)
    (hfits : fitsPolicy query.policy kept p = true) :
    Tracks sha unicode query (kept ++ [p]) (gather sha unicode query g p) := by
  have hlen : g.hits.length = kept.length := by
    have := congrArg List.length h.hits
    rwa [List.length_map, List.length_map] at this
  have hroom : ¬(query.policy.topK ≤ g.hits.length
      ∨ query.policy.maximumTokens < g.tokens + p.1.chunk.tokenEstimate
      ∨ query.policy.maximumBytes < g.byteCount + p.1.chunk.byteCount) := by
    rw [hlen, h.tokens, h.bytes]
    obtain ⟨htop, htokens, hbytes⟩ := of_decide_eq_true hfits
    omega
  have hsums : ∀ w : Scored S → Nat, ((kept ++ [p]).map w).sum = (kept.map w).sum + w p := fun w => by
    rw [List.map_append, List.sum_append, List.map_singleton, List.sum_singleton]
  have hplain : ∀ group, ({ p.2 with contradictionGroup := group } : RetrievalHit S).plain = p.2 := by
    intro group
    show ({ p.2 with contradictionGroup := none } : RetrievalHit S) = p.2
    rw [← hp.mark]
  have hkey : ∀ group, claimKey unicode ({ p.2 with contradictionGroup := group } : RetrievalHit S).text =
      claimKey unicode p.1.chunk.text := fun group => congrArg _ hp.text
  have hdigest : ∀ group, RetrievalHit.digest sha
      ({ p.2 with contradictionGroup := group } : RetrievalHit S) = p.1.chunk.contentDigest := by
    intro group
    show sha.hexdigest p.2.text = _
    rw [hp.text, hp.digest]
  generalize hclaim : claimKey unicode p.1.chunk.text = claim at hkey
  by_cases hagree : g.seenClaims claim = none ∨ g.seenClaims claim = some p.1.chunk.contentDigest
  · rw [gather_agrees hroom (hclaim ▸ hagree)]
    refine ⟨?_, ?_, ?_, fun key => ?_⟩
    · rw [keep_hits, List.map_append, h.hits, List.map_append, List.map_singleton, hplain]
      rfl
    · rw [keep_tokens, h.tokens, hsums]
    · rw [keep_byteCount, h.bytes, hsums]
    · rw [keep_seenClaims, keep_hits, hclaim, filter_append_single, hkey]
      rcases eq_or_ne key claim with rfl | hne
      · rw [Function.update_self, if_pos (decide_eq_true rfl), ← hdigest none]
        exact (h.marks key).agree rfl (by rw [hdigest]; exact hagree)
      · rw [Function.update_of_ne hne, if_neg (by simpa using hne.symm)]
        exact h.marks key
  · obtain ⟨hsome, hdiffer⟩ := not_or.mp hagree
    obtain ⟨prior, hprior⟩ := Option.ne_none_iff_exists'.mp hsome
    have hne : prior ≠ p.1.chunk.contentDigest := fun heq => hdiffer (by rw [hprior, heq])
    rw [gather_disagrees hroom (hclaim ▸ hprior) hne]
    dsimp only
    rw [hclaim]
    refine ⟨?_, ?_, ?_, fun key => ?_⟩
    · rw [keep_hits, List.map_append, List.map_map, List.map_append, List.map_singleton, hplain, ← h.hits]
      refine congrArg (· ++ [p.2]) (List.map_congr_left fun hit _ => ?_)
      exact markClaim_plain _ _ hit
    · rw [keep_tokens, h.tokens, hsums]
    · rw [keep_byteCount, h.bytes, hsums]
    · rw [keep_seenClaims, keep_hits, hclaim, filter_append_single, hkey]
      rcases eq_or_ne key claim with rfl | hother
      · rw [Function.update_self, if_pos (decide_eq_true rfl), filter_claim,
          ← hdigest (some (contradictionGroup sha query.tenantId key))]
        refine (h.marks key).disagree ?_ ?_ rfl hprior (by rw [hdigest]; exact hne)
        · intro hit
          rfl
        · intro hit _
          rfl
      · rw [Function.update_of_ne hother, if_neg (by simpa using hother.symm), filter_other hother]
        exact h.marks key

/-- **What the pass makes of the selected items.** -/
theorem foldl_tracks {query : RetrievalQuery} {selected : List (Scored S)}
    (hplain : ∀ p ∈ selected, Plain sha p) {kept : List (Scored S)} {g : Gathered S}
    (h : Tracks sha unicode query kept g) :
    Tracks sha unicode query (Selection.pick (fitsPolicy query.policy) kept selected)
      (selected.foldl (gather sha unicode query) g) := by
  induction selected generalizing kept g with
  | nil => exact h
  | cons p selected ih =>
    rw [Selection.pick, List.foldl_cons]
    have hrest : ∀ q ∈ selected, Plain sha q := fun q hq => hplain q (List.mem_cons_of_mem _ hq)
    cases hfits : fitsPolicy query.policy kept p with
    | false =>
      rw [gather_skips h hfits, if_neg Bool.false_ne_true]
      exact ih hrest h
    | true =>
      rw [if_pos rfl]
      exact ih hrest (gather_keeps h (hplain p List.mem_cons_self) hfits)

/-! ## Runs of the index -/

end

/-- A call of the index.  What is indexed has been validated. -/
inductive IndexOp (V : Type) (sha : Sha256) where
  | index (item : IndexedChunk) (valid : ValidChunk sha item.chunk)
  | purge (tenantId memoryId : String)
  | retrieve (query : RetrievalQuery) (vector : List V)

section

variable [DecidableEq S] [LinearOrder K] (sha : Sha256) (unicode : Unicode)
  (attributes : MemoryRecord → RecordAttributes) (ranking : Ranking V S K)

/-- One call: what a retrieval returns, and the state the call leaves. -/
def indexStep (s : HybridIndex S) :
    IndexOp V sha → Except Error (Option (RetrievalResult S)) × HybridIndex S
  | .index item _ => (do HybridIndex.index item; pure none : IndexAction S _) s
  | .purge tenantId memoryId => (do let _ ← HybridIndex.purge tenantId memoryId; pure none :
      IndexAction S _) s
  | .retrieve query vector => (do
      let result ← retrieve sha unicode attributes ranking query vector
      pure (some result) : IndexAction S _) s

/-- The index after calls. -/
def indexRun (ops : List (IndexOp V sha)) : HybridIndex S :=
  Machine.final (indexStep sha unicode attributes ranking) (HybridIndex.start S) ops

variable {sha unicode attributes ranking}

/-- The items of an index: each under its own key, each with a valid chunk. -/
structure Content (sha : Sha256) (items : IndexItems) : Prop where
  keyed : ∀ e ∈ items.entries, e.1 = (e.2.record.tenantId.val, e.2.chunk.chunkId.val)
  valid : ∀ e ∈ items.entries, ValidChunk sha e.2.chunk

/-- What is remembered was computed in one of the calls that were asked: from the items of the index at
    that call. -/
def Remembered (sha : Sha256) (unicode : Unicode) (attributes : MemoryRecord → RecordAttributes)
    (ranking : Ranking V S K) (asked : RetrievalQuery → List V → IndexItems → Prop)
    (key : String × Digest × Digest) (result : RetrievalResult S) : Prop :=
  ∃ query vector items, asked query vector items ∧ Content sha items ∧ key = cacheKey sha query ∧
    compute sha unicode attributes ranking query vector (itemsOf items) = .ok result

structure IndexInvariant (sha : Sha256) (unicode : Unicode) (attributes : MemoryRecord → RecordAttributes)
    (ranking : Ranking V S K) (asked : RetrievalQuery → List V → IndexItems → Prop)
    (s : HybridIndex S) : Prop where
  content : Content sha s.items
  cached : ∀ e ∈ s.cache.entries, Remembered sha unicode attributes ranking asked e.1 e.2.2

omit [DecidableEq S] in
theorem content_start : Content sha (HybridIndex.start S).items :=
  ⟨fun _ h => (by cases h), fun _ h => (by cases h)⟩

theorem content_insert {items : IndexItems} (h : Content sha items)
    {item : IndexedChunk} (hvalid : ValidChunk sha item.chunk) :
    Content sha (items.insert (item.record.tenantId.val, item.chunk.chunkId.val) item) := by
  have hentries : ∀ e ∈ (items.insert (item.record.tenantId.val, item.chunk.chunkId.val) item).entries,
      e = ⟨(item.record.tenantId.val, item.chunk.chunkId.val), item⟩ ∨ e ∈ items.entries := by
    intro e he
    rw [AList.entries_insert] at he
    rcases List.mem_cons.mp he with he | he
    · exact .inl he
    · exact .inr (List.kerase_sublist _ _ |>.subset he)
  constructor
  · intro e he
    rcases hentries e he with rfl | he
    · rfl
    · exact h.keyed e he
  · intro e he
    rcases hentries e he with rfl | he
    · exact hvalid
    · exact h.valid e he

theorem content_without {items : IndexItems} (h : Content sha items)
    (key : String × String) : Content sha (withoutMemory items key) :=
  ⟨fun e he => h.keyed e (List.mem_of_mem_filter he), fun e he => h.valid e (List.mem_of_mem_filter he)⟩

variable {asked : RetrievalQuery → List V → IndexItems → Prop}

theorem IndexInvariant.mono {asked' : RetrievalQuery → List V → IndexItems → Prop}
    (hsub : ∀ query vector items, asked query vector items → asked' query vector items)
    {s : HybridIndex S} (h : IndexInvariant sha unicode attributes ranking asked s) :
    IndexInvariant sha unicode attributes ranking asked' s := by
  refine ⟨h.content, fun e he => ?_⟩
  obtain ⟨query, vector, items, hasked, hrest⟩ := h.cached e he
  exact ⟨query, vector, items, hsub _ _ _ hasked, hrest⟩

/-- Past the cache: the result is computed from the items, and perhaps remembered. -/
theorem retrieveFresh_sat {s : HybridIndex S}
    (h : IndexInvariant sha unicode attributes ranking asked s) {query : RetrievalQuery} {vector : List V}
    (hasked : asked query vector s.items) :
    Exec.Sat (retrieveFresh sha unicode attributes ranking query vector) s
      (fun result s' => IndexInvariant sha unicode attributes ranking asked s' ∧
        compute sha unicode attributes ranking query vector (itemsOf s.items) = .ok result)
      (fun _ s' => IndexInvariant sha unicode attributes ranking asked s') := by
  unfold retrieveFresh
  rw [Exec.sat_bind, Exec.sat_read, Exec.sat_bind, Exec.sat_lift]
  refine ⟨fun result hresult => ?_, fun _ _ => h⟩
  split
  · rw [Exec.sat_bind, Exec.sat_modify]
    refine ⟨⟨h.content, fun e he => ?_⟩, hresult⟩
    rw [AList.entries_insert] at he
    rcases List.mem_cons.mp he with rfl | he
    · exact ⟨query, vector, s.items, hasked, h.content, rfl, hresult⟩
    · exact h.cached e ((List.kerase_sublist _ _).subset he)
  · exact ⟨h, hresult⟩

/-- **What a retrieval does**: it answers from the cache, or computes from the items. -/
theorem retrieve_sat {s : HybridIndex S} {asked' : RetrievalQuery → List V → IndexItems → Prop}
    (h : IndexInvariant sha unicode attributes ranking asked s)
    (hsub : ∀ query vector items, asked query vector items → asked' query vector items)
    {query : RetrievalQuery} {vector : List V} (hasked : asked' query vector s.items) :
    Exec.Sat (retrieve sha unicode attributes ranking query vector) s
      (fun result s' => IndexInvariant sha unicode attributes ranking asked' s' ∧
        ((∃ cached, result = { cached with cacheHit := true } ∧
            Remembered sha unicode attributes ranking asked (cacheKey sha query) cached) ∨
          compute sha unicode attributes ranking query vector (itemsOf s.items) = .ok result))
      (fun _ s' => IndexInvariant sha unicode attributes ranking asked' s') := by
  have hfresh := fun (s' : HybridIndex S) (hitems : s'.items = s.items)
    (h' : IndexInvariant sha unicode attributes ranking asked' s') =>
      retrieveFresh_sat h' (show asked' query vector s'.items from hitems ▸ hasked)
  have h' := h.mono hsub
  unfold retrieve
  generalize retrieveFresh sha unicode attributes ranking query vector = fresh at hfresh ⊢
  refine Exec.Sat.check (fun _ => h') fun _ => ?_
  rw [Exec.sat_bind, Exec.sat_read]
  cases hlookup : s.cache.lookup (cacheKey sha query) with
  | none =>
    refine Exec.Sat.mono (hfresh s rfl h') ?_ fun _ _ hs => hs
    rintro result s' ⟨hs, hcomputed⟩
    exact ⟨hs, Or.inr hcomputed⟩
  | some cached =>
    dsimp only
    split
    · refine ⟨h', .inl ⟨cached.2, rfl, ?_⟩⟩
      exact h.cached ⟨_, cached⟩ (AList.mem_lookup_iff.mp hlookup)
    · -- what has expired is taken out first
      rw [Exec.sat_bind, Exec.sat_modify]
      have hpopped : IndexInvariant sha unicode attributes ranking asked'
          { s with cache := s.cache.erase (cacheKey sha query) } :=
        ⟨h'.content, fun e he => h'.cached e ((List.kerase_sublist _ _).subset he)⟩
      refine Exec.Sat.mono (hfresh _ rfl hpopped) ?_ fun _ _ hs => hs
      rintro result s' ⟨hs, hcomputed⟩
      exact ⟨hs, Or.inr hcomputed⟩

omit [DecidableEq S] in
theorem forgetTenant_subset {cache : AList (fun _ : String × Digest × Digest => Datetime × RetrievalResult S)}
    {tenantId : String} : ∀ e ∈ (forgetTenant cache tenantId).entries, e ∈ cache.entries :=
  fun _ he => List.mem_of_mem_filter he

/-- **Every call keeps the invariant**, when a retrieval counts as asked. -/
theorem indexStep_keeps {s : HybridIndex S} (h : IndexInvariant sha unicode attributes ranking asked s)
    (op : IndexOp V sha) (hop : ∀ query vector, op = .retrieve query vector → asked query vector s.items) :
    IndexInvariant sha unicode attributes ranking asked
      (indexStep sha unicode attributes ranking s op).2 := by
  cases op with
  | index item valid =>
    refine Exec.Sat.state (I := IndexInvariant sha unicode attributes ranking asked) ?_
    rw [Exec.sat_bind]
    refine Exec.Sat.check (fun _ => h) fun _ => ?_
    rw [Exec.sat_modify]
    exact ⟨content_insert h.content valid, fun e he => h.cached e (forgetTenant_subset e he)⟩
  | purge tenantId memoryId =>
    refine Exec.Sat.state (I := IndexInvariant sha unicode attributes ranking asked) ?_
    exact ⟨content_without h.content _, fun e he => h.cached e (forgetTenant_subset e he)⟩
  | retrieve query vector =>
    refine Exec.Sat.state (I := IndexInvariant sha unicode attributes ranking asked) ?_
    rw [Exec.sat_bind]
    refine Exec.Sat.mono (retrieve_sat h (fun _ _ _ ha => ha) (hop query vector rfl)) ?_ fun _ _ hs => hs
    intro result s' hr
    exact hr.1

variable (sha unicode attributes ranking) in
/-- The retrievals of a run, each with the items of the index when it was called. -/
def Asked (ops : List (IndexOp V sha)) (query : RetrievalQuery) (vector : List V) (items : IndexItems) :
    Prop :=
  ∃ before after, ops = before ++ .retrieve query vector :: after ∧
    items = (indexRun sha unicode attributes ranking before).items

theorem indexRun_invariant (ops : List (IndexOp V sha)) :
    IndexInvariant sha unicode attributes ranking (Asked sha unicode attributes ranking ops)
      (indexRun sha unicode attributes ranking ops) := by
  refine Machine.run_invariant
    (I := IndexInvariant sha unicode attributes ranking (Asked sha unicode attributes ranking ops))
    (C := fun s op => ∀ query vector, op = .retrieve query vector →
      Asked sha unicode attributes ranking ops query vector s.items)
    (fun s op h hop => indexStep_keeps h op hop) ops _ ⟨content_start, fun e he => (by cases he)⟩ ?_
  intro e he query vector hquery
  obtain ⟨before, after, hops, hentry⟩ := Machine.trace_mem he
  refine ⟨before, after, ?_, ?_⟩
  · rw [hops, hquery]
  · rw [hentry]
    rfl

/-- **A retrieval after a run**: an earlier call of the run computed its result, or this one does. -/
theorem retrieve_run {ops : List (IndexOp V sha)} {query : RetrievalQuery} {vector : List V}
    {result : RetrievalResult S} {s' : HybridIndex S}
    (h : retrieve sha unicode attributes ranking query vector
      (indexRun sha unicode attributes ranking ops) = (.ok result, s')) :
    (∃ cached, result = { cached with cacheHit := true } ∧
      Remembered sha unicode attributes ranking (Asked sha unicode attributes ranking ops)
        (cacheKey sha query) cached) ∨
    (Content sha (indexRun sha unicode attributes ranking ops).items ∧
      compute sha unicode attributes ranking query vector
        (itemsOf (indexRun sha unicode attributes ranking ops).items) = .ok result) := by
  have hinv : IndexInvariant sha unicode attributes ranking (Asked sha unicode attributes ranking ops)
      (indexRun sha unicode attributes ranking ops) := indexRun_invariant ops
  have hsub : ∀ query vector items, Asked sha unicode attributes ranking ops query vector items → True :=
    fun _ _ _ _ => trivial
  rcases ((retrieve_sat hinv hsub trivial).ok h).2 with hcached | hcomputed
  · exact .inl hcached
  · exact .inr ⟨hinv.content, hcomputed⟩

theorem Content.valid_items {items : IndexItems} (h : Content sha items) :
    ∀ item ∈ itemsOf items, ValidChunk sha item.chunk := by
  intro item hitem
  obtain ⟨e, he, rfl⟩ := List.mem_map.mp hitem
  exact h.valid e he

end

/-! ## A worked index -/

/-- Scores that are all alike: the ranking is by memory. -/
def flatRanking : Ranking Nat Nat Nat where
  finite := fun _ => true
  scores := fun _ _ _ => 0
  stale := fun _ _ => false
  combined := id
  worth := fun _ _ _ => 0
  dump := fun _ => []

/-- Texts of lower-case ASCII letters are as Unicode has them. -/
def asciiUnicode : Unicode := ⟨id, id⟩

def openAttributes (_ : MemoryRecord) : RecordAttributes where
  acl := ⟨[], []⟩
  classification := .internal
  acceptedAt := some ⟨0, 0⟩
  expiresAt := ⟨10, 0⟩
  supersededBy := none
  tombstoneReason := none

theorem ten_candidates : 1 ≤ 10 ∧ 10 ≤ 1000 := by decide

theorem no_holds : ([] : List Identifier).length ≤ 16 := by decide

def flatPolicy : RetrievalPolicy where
  policyId := ⟨"policy", computed⟩
  revision := 1
  lexicalWeight := ⟨['1', '.', '0'], computed⟩
  vectorWeight := ⟨['0', '.', '0'], computed⟩
  recencyWeight := ⟨['0', '.', '0'], computed⟩
  qualityWeight := ⟨['0', '.', '0'], computed⟩
  mmrLambda := ⟨['1', '.', '0'], computed⟩
  maximumCandidates := 10
  topK := 5
  maximumTokens := 1024
  maximumBytes := 4096
  cacheTtlSeconds := 0
  freshnessSeconds := 60
  candidates_ok := ten_candidates
  topK_ok := by decide
  tokens_ok := by decide
  bytes_ok := by decide

def diskQuery (sha : Sha256) : RetrievalQuery where
  queryId := ⟨"query", computed⟩
  tenantId := chunkTenant
  principalRef := ⟨"principal", computed⟩
  roles := []
  allowedClassifications := {.internal}
  text := "disk full"
  queryDigest := sha.hexdigest "disk full"
  requestedAt := ⟨5, 0⟩
  asOf := ⟨5, 0⟩
  policy := flatPolicy

/-- A memory of one chunk. -/
def memoryItem (sha : Sha256) (memory : Identifier) (text : String) : IndexedChunk :=
  let chunk := { chunkOf sha chunkTenant memory chunkCitation 0 text.toList with chunkId := memory }
  { record :=
      { memoryId := memory
        tenantId := chunkTenant
        tier := .episodic
        status := .active
        runId := ⟨"run", computed⟩
        evidenceId := ⟨"evidence", computed⟩
        citation := chunkCitation
        trust := .operatorApproved
        chunkerVersion := ⟨chunkerVersion, computed⟩
        embedderModel := ⟨"model", computed⟩
        embedderVersion := ⟨"1", computed⟩
        embeddingDimensions := 2
        contentDigest := zeroHash
        retention := ⟨[], no_holds⟩
        blob := ⟨chunkTenant, ⟨"blob", computed⟩, zeroHash⟩
        supersedes := []
        canonicalDigest := zeroHash
        citation_ok := rfl
        blob_ok := ⟨rfl, rfl⟩ }
    chunk
    vector := ⟨chunk.chunkId, chunk.contentDigest, 2⟩
    indexedAt := ⟨1, 0⟩ }

def diskSha : Sha256 := .table ["disk full on node one", "disk full on node two"]

theorem memoryItem_valid (sha : Sha256) (memory : Identifier) {text : String} (h : Fits text.toList) :
    ValidChunk sha (memoryItem sha memory text).chunk := by
  have hvalid : ValidChunk sha (chunkOf sha chunkTenant memory chunkCitation 0 text.toList) := chunkOf_valid h
  exact ⟨hvalid.digest, hvalid.bytes, hvalid.tokens, hvalid.bounded⟩

def indexMemory (memory : Identifier) (text : String) (h : Fits text.toList) : IndexOp Nat diskSha :=
  .index (memoryItem diskSha memory text) (memoryItem_valid diskSha memory h)

def diskOne : IndexOp Nat diskSha :=
  indexMemory ⟨"m1", by decide⟩ "disk full on node one" (by unfold Fits; decide)

def diskTwo (memory : Identifier) : IndexOp Nat diskSha :=
  indexMemory memory "disk full on node two" (by unfold Fits; decide)

/-- One memory says node one, two say node two. -/
def diskOps : List (IndexOp Nat diskSha) :=
  [diskOne, diskTwo ⟨"m2", by decide⟩, diskTwo ⟨"m3", by decide⟩]

def diskRetrieve (ops : List (IndexOp Nat diskSha)) :
    Except Error (RetrievalResult Nat) × HybridIndex Nat :=
  retrieve diskSha asciiUnicode openAttributes flatRanking (diskQuery diskSha) [0, 1]
    (indexRun diskSha asciiUnicode openAttributes flatRanking ops)

section

variable [DecidableEq S] [LinearOrder K] {sha : Sha256} {unicode : Unicode}
  {attributes : MemoryRecord → RecordAttributes} {ranking : Ranking V S K}

/-! ## Contradictions -/

omit [DecidableEq S] [LinearOrder K] in
theorem plain_of_valid {query : RetrievalQuery} {vector : List V} {p : Scored S} {items : List IndexedChunk}
    (h : Genuine query vector ranking items p) (hvalid : ∀ item ∈ items, ValidChunk sha item.chunk) :
    Plain sha p := by
  obtain ⟨hmem, hhit⟩ := h
  exact ⟨by rw [hhit]; rfl, by rw [hhit]; rfl, (hvalid _ hmem).digest⟩

/-- **The hits of a computed result are the admitted items.** -/
theorem compute_tracks {query : RetrievalQuery} {vector : List V} {items : List IndexedChunk}
    (hvalid : ∀ item ∈ items, ValidChunk sha item.chunk) {result : RetrievalResult S}
    (h : compute sha unicode attributes ranking query vector items = .ok result) :
    ∃ g, Tracks sha unicode query
        (admitted query.policy (selectedOf attributes ranking query vector items)) g ∧
      result = RetrievalResult.of sha ranking query
        (candidatesOf attributes ranking query vector items).length g := by
  refine ⟨_, ?_, compute_ok h⟩
  refine foldl_tracks (fun p hp => ?_) (tracks_start query)
  refine plain_of_valid (genuine_of_mem hp) fun item hitem => hvalid item ?_
  exact List.mem_of_mem_filter hitem

/-- Contradictions are marked consistently: hits on one claim with different digests share a group, and a
    hit with a group has such a partner. -/
def Consistent (sha : Sha256) (unicode : Unicode) (hits : List (RetrievalHit S)) : Prop :=
  (∀ a ∈ hits, ∀ b ∈ hits, claimKey unicode a.text = claimKey unicode b.text →
    a.digest sha ≠ b.digest sha → ∃ g, a.contradictionGroup = some g ∧ b.contradictionGroup = some g) ∧
  ∀ a ∈ hits, a.contradictionGroup.isSome = true →
    ∃ b ∈ hits, claimKey unicode b.text = claimKey unicode a.text ∧ b.digest sha ≠ a.digest sha

/-- The digests of the items on a claim, in order. -/
def claimDigests (unicode : Unicode) (items : List (Scored S)) (key : String) : List Digest :=
  (items.filter fun p => decide (claimKey unicode p.1.chunk.text = key)).map fun p => p.1.chunk.contentDigest

omit [DecidableEq S] in
/-- The hits on a claim have the digests of the items. -/
theorem claimDigests_hits {query : RetrievalQuery} {kept : List (Scored S)} {g : Gathered S}
    (h : Tracks sha unicode query kept g) (hplain : ∀ p ∈ kept, Plain sha p) (key : String) :
    (g.hits.filter fun hit => decide (claimKey unicode hit.text = key)).map (RetrievalHit.digest sha) =
      claimDigests unicode kept key := by
  have hstrip : ∀ hits : List (RetrievalHit S),
      (hits.filter fun hit => decide (claimKey unicode hit.text = key)).map (RetrievalHit.digest sha) =
        ((hits.map RetrievalHit.plain).filter fun hit => decide (claimKey unicode hit.text = key)).map
          (RetrievalHit.digest sha) := by
    intro hits
    rw [List.filter_map, List.map_map]
    rfl
  rw [hstrip, h.hits, claimDigests, List.filter_map, List.map_map]
  have hkeys : kept.filter ((fun hit => decide (claimKey unicode hit.text = key)) ∘ fun p => p.2) =
      kept.filter fun p => decide (claimKey unicode p.1.chunk.text = key) := by
    refine List.filter_congr fun p hp => ?_
    rw [Function.comp_apply, (hplain p hp).text]
  rw [hkeys]
  refine List.map_congr_left fun p hp => ?_
  have hp := hplain p (List.mem_of_mem_filter hp)
  show sha.hexdigest p.2.text = _
  rw [hp.text, hp.digest]

omit [DecidableEq S] in
/-- **When contradictions are marked consistently.** -/
theorem Tracks.consistent_iff {query : RetrievalQuery} {kept : List (Scored S)} {g : Gathered S}
    (h : Tracks sha unicode query kept g) (hplain : ∀ p ∈ kept, Plain sha p) :
    Consistent sha unicode g.hits ↔ ∀ key, Marks.Settled (claimDigests unicode kept key) := by
  have hmem : ∀ {key : String} {a : RetrievalHit S},
      a ∈ g.hits.filter (fun hit => decide (claimKey unicode hit.text = key)) ↔
        a ∈ g.hits ∧ claimKey unicode a.text = key := by
    intro key a
    rw [List.mem_filter, decide_eq_true_eq]
  have hall : ∀ key, Marks.Settled (claimDigests unicode kept key) ↔
      ∀ a ∈ g.hits, claimKey unicode a.text = key → ∀ b ∈ g.hits, claimKey unicode b.text = key →
        a.digest sha ≠ b.digest sha →
        a.contradictionGroup = some (contradictionGroup sha query.tenantId key) ∧
          b.contradictionGroup = some (contradictionGroup sha query.tenantId key) := by
    intro key
    rw [← claimDigests_hits h hplain key, ← (h.marks key).all_iff]
    constructor
    · intro hmarks a ha hka b hb hkb hab
      exact hmarks a (hmem.mpr ⟨ha, hka⟩) b (hmem.mpr ⟨hb, hkb⟩) hab
    · intro hmarks a ha b hb hab
      exact hmarks a (hmem.mp ha).1 (hmem.mp ha).2 b (hmem.mp hb).1 (hmem.mp hb).2 hab
  constructor
  · rintro ⟨hshared, -⟩ key
    refine (hall key).mpr fun a ha hka b hb hkb hab => ?_
    obtain ⟨group, hga, hgb⟩ := hshared a ha b hb (hka.trans hkb.symm) hab
    -- a mark is the group of the claim
    obtain ⟨marked, free, hparts, hmarked, hfree, -⟩ := (h.marks key).parts
    have hgroup : ∀ c, c ∈ g.hits → claimKey unicode c.text = key → c.contradictionGroup = some group →
        c.contradictionGroup = some (contradictionGroup sha query.tenantId key) := by
      intro c hc hkc hgc
      have hin := hmem.mpr ⟨hc, hkc⟩
      rw [hparts] at hin
      rcases List.mem_append.mp hin with hin | hin
      · exact hmarked c hin
      · have hnone := (hfree c hin).1
        rw [hgc] at hnone
        cases hnone
    exact ⟨hgroup a ha hka hga, hgroup b hb hkb hgb⟩
  · intro hsettled
    refine ⟨fun a ha b hb hkey hab => ?_, fun a ha hmark => ?_⟩
    · exact ⟨_, (hall _).mp (hsettled _) a ha hkey b hb rfl hab⟩
    · obtain ⟨b, hb, hne⟩ := (h.marks (claimKey unicode a.text)).sound (hmem.mpr ⟨ha, rfl⟩) hmark
      exact ⟨b, (hmem.mp hb).1, (hmem.mp hb).2, hne⟩

/-- **Contradictions are marked consistently exactly when, for every claim, the digests of the admitted
    items are all equal or the last two differ.** -/
theorem contradictions_consistent_iff {ops : List (IndexOp V sha)} {query : RetrievalQuery}
    {vector : List V} {result : RetrievalResult S} {s' : HybridIndex S}
    (h : retrieve sha unicode attributes ranking query vector
      (indexRun sha unicode attributes ranking ops) = (.ok result, s'))
    (huncached : result.cacheHit = false) :
    Consistent sha unicode result.hits ↔
      ∀ key, Marks.Settled (claimDigests unicode (admitted query.policy (selectedOf attributes ranking
        query vector (itemsOf (indexRun sha unicode attributes ranking ops).items))) key) := by
  rcases retrieve_run h with ⟨cached, rfl, -⟩ | ⟨hcontent, hcomputed⟩
  · cases huncached
  · have hvalid := hcontent.valid_items
    obtain ⟨g, htracks, rfl⟩ := compute_tracks hvalid hcomputed
    refine htracks.consistent_iff fun p hp => ?_
    have hselected := (Selection.pick_sublist _ _).subset hp
    refine plain_of_valid (genuine_of_mem hselected) fun item hitem => hvalid item ?_
    exact List.mem_of_mem_filter hitem

end

theorem contradictions_consistent_sample : ∃ result s', diskRetrieve [diskOne] = (.ok result, s') ∧
    (Consistent diskSha asciiUnicode result.hits ↔
      ∀ key, Marks.Settled (claimDigests asciiUnicode (admitted flatPolicy (selectedOf openAttributes
        flatRanking (diskQuery diskSha) [0, 1] (itemsOf (indexRun diskSha asciiUnicode openAttributes
          flatRanking [diskOne]).items))) key)) := by
  have hok : (diskRetrieve [diskOne]).1.toOption.map (fun r => r.cacheHit) = some false := by
    decide +kernel
  rcases hrun : diskRetrieve [diskOne] with ⟨answer, s'⟩
  rw [hrun] at hok
  cases answer with
  | error e => cases hok
  | ok result =>
    exact ⟨result, s', rfl, contradictions_consistent_iff hrun (Option.some.inj hok)⟩

/-- **Digests one, two, two on one claim leave the third hit without a group**, though it contradicts the
    first. -/
theorem contradiction_unmarked : ∃ result s', diskRetrieve diskOps = (.ok result, s') ∧
    result.cacheHit = false ∧ ¬Consistent diskSha asciiUnicode result.hits := by
  -- the claim, the digest and the mark of each hit
  let view := fun hit : RetrievalHit Nat =>
    (claimKey asciiUnicode hit.text, hit.digest diskSha, hit.contradictionGroup.isSome)
  let claim := joinParts ["disk", "full", "on", "node"]
  have hview : (diskRetrieve diskOps).1.toOption.map (fun r => (r.cacheHit, r.hits.map view)) =
      some (false, [(claim, diskSha.hexdigest "disk full on node one", true),
        (claim, diskSha.hexdigest "disk full on node two", true),
        (claim, diskSha.hexdigest "disk full on node two", false)]) := by
    decide +kernel
  rcases hrun : diskRetrieve diskOps with ⟨answer, s'⟩
  rw [hrun] at hview
  cases answer with
  | error e => cases hview
  | ok result =>
    obtain ⟨huncached, hhits⟩ := Prod.mk.inj (Option.some.inj hview)
    refine ⟨result, s', rfl, huncached, fun hconsistent => ?_⟩
    obtain ⟨a, ha, hva⟩ : ∃ a ∈ result.hits,
        view a = (claim, diskSha.hexdigest "disk full on node one", true) :=
      List.mem_map.mp (hhits ▸ List.mem_cons_self)
    obtain ⟨c, hc, hvc⟩ : ∃ c ∈ result.hits,
        view c = (claim, diskSha.hexdigest "disk full on node two", false) :=
      List.mem_map.mp (hhits ▸ by simp)
    simp only [view, Prod.mk.injEq] at hva hvc
    have hdiffer : a.digest diskSha ≠ c.digest diskSha := by
      rw [hva.2.1, hvc.2.1]
      decide
    obtain ⟨g, -, hg⟩ := hconsistent.1 a ha c hc (hva.1.trans hvc.1.symm) hdiffer
    rw [hg] at hvc
    cases hvc.2.2

end Memory

end Aegis
