/-
  TENANTS OF ONE INDEX, AND WHO MAY SEE WHAT.

  All tenants share one index and one cache of results.  What keeps them apart is a property of whole runs:

  1. A result is remembered only while the items of its tenant stay as they were (`Current`): indexing,
     purging and `invalidate_tenant` forget what is remembered for the tenant they touch, and leave the
     items of the others (`tenantEntries`) alone.
  2. So every hit, cached or not, is an item that is in the index NOW and was eligible for a query with the
     cache key of the one that asks (`retrieve_hits`); and the key determines all that `_eligible` reads of
     a query (`eligible_of_cacheKey`).
  3. A purged memory is therefore not served again, and the answers to one tenant are those of an index
     that never saw the calls of another (by unwinding, `Machine.own_results`).
-/
import Mathlib
import Aegis.Lib.Frames
import Aegis.Lib.Interference
import Aegis.Memory.Hits

namespace Aegis

namespace Memory

open Evidence (DataClassification)

variable {V S K : Type}

/-! ## The items of a tenant -/

abbrev Keyed : Type := (_ : String × String) × IndexedChunk

abbrev CacheKey : Type := String × Digest × Digest

abbrev ResultCache (S : Type) : Type := AList (fun _ : CacheKey => Datetime × RetrievalResult S)

/-- The entries of a tenant, in order. -/
def tenantEntries (tenant : String) (items : IndexItems) : List Keyed :=
  items.entries.filter fun e => decide (e.1.1 = tenant)

theorem filter_kerase (p : String × String → Bool) (key : String × String) (entries : List Keyed) :
    (List.kerase key entries).filter (fun e => p e.1) = List.kerase key (entries.filter fun e => p e.1) := by
  induction entries with
  | nil => rfl
  | cons e entries ih =>
    by_cases hkey : key = e.1
    · rw [List.kerase_cons_eq hkey, List.filter_cons]
      split
      · rw [List.kerase_cons_eq hkey]
      · rename_i hp
        -- nothing under the key is left by the filter
        refine (List.kerase_of_notMem_keys fun hmem => ?_).symm
        obtain ⟨e', he', hkey'⟩ := List.mem_map.mp hmem
        have hkeep := (List.mem_filter.mp he').2
        rw [hkey', hkey] at hkeep
        exact hp hkeep
    · rw [List.kerase_cons_ne hkey, List.filter_cons, List.filter_cons]
      split
      · rw [List.kerase_cons_ne hkey, ih]
      · exact ih

/-- Other tenants keep their entries when an item is put in. -/
theorem tenantEntries_insert {tenant : String} {key : String × String} (items : IndexItems)
    (item : IndexedChunk) (h : key.1 ≠ tenant) :
    tenantEntries tenant (items.insert key item) = tenantEntries tenant items := by
  unfold tenantEntries
  rw [AList.entries_insert, List.filter_cons_of_neg (by simpa using h),
    filter_kerase (fun k => decide (k.1 = tenant))]
  refine List.kerase_of_notMem_keys fun hmem => ?_
  obtain ⟨e, he, hkey⟩ := List.mem_map.mp hmem
  have htenant : e.1.1 = tenant := of_decide_eq_true (List.mem_filter.mp he).2
  exact h (hkey ▸ htenant)

/-- An item of the tenant comes first among its entries. -/
theorem tenantEntries_own (key : String × String) (items : IndexItems) (item : IndexedChunk) :
    tenantEntries key.1 (items.insert key item) =
      ⟨key, item⟩ :: List.kerase key (tenantEntries key.1 items) := by
  unfold tenantEntries
  rw [AList.entries_insert, List.filter_cons_of_pos (by exact decide_eq_true rfl),
    filter_kerase (fun k => decide (k.1 = key.1))]

/-- Taking a memory out of an index takes it out of the entries of each tenant. -/
theorem tenantEntries_without (tenant : String) (items : IndexItems) (key : String × String) :
    tenantEntries tenant (withoutMemory items key) =
      (tenantEntries tenant items).filter fun e => decide (e.2.record.key ≠ key) := by
  unfold tenantEntries withoutMemory
  rw [List.filter_filter, List.filter_filter]
  exact List.filter_congr fun e _ => Bool.and_comm _ _

theorem tenantEntries_other {sha : Sha256} {items : IndexItems} (h : Content sha items) {tenant : String}
    {key : String × String} (hne : key.1 ≠ tenant) :
    tenantEntries tenant (withoutMemory items key) = tenantEntries tenant items := by
  rw [tenantEntries_without]
  refine List.filter_eq_self.mpr fun e he => decide_eq_true fun hkey => ?_
  obtain ⟨hmem, htenant⟩ := List.mem_filter.mp he
  have hrecord : e.1.1 = key.1 := by
    rw [h.keyed e hmem, ← hkey]
    rfl
  exact hne (hrecord.symm.trans (of_decide_eq_true htenant))

section

variable [LinearOrder K] {sha : Sha256} {unicode : Unicode} {attributes : MemoryRecord → RecordAttributes}
  {ranking : Ranking V S K}

omit [LinearOrder K] in
/-- A query sees the entries of its own tenant only. -/
theorem scoredItems_tenant {items : IndexItems} (h : Content sha items) (query : RetrievalQuery)
    (vector : List V) : scoredItems attributes query vector (itemsOf items) =
      scoredItems attributes query vector ((tenantEntries query.tenantId.val items).map fun e => e.2) := by
  unfold scoredItems itemsOf tenantEntries
  rw [List.filter_map, List.filter_map, List.filter_filter]
  refine congrArg _ (List.filter_congr fun e he => ?_)
  simp only [Function.comp_apply]
  cases hsees : eligible attributes query e.2 && decide (e.2.vector.dimensions = vector.length) with
  | false => rfl
  | true =>
    have htenant : e.2.record.tenantId = query.tenantId := by
      simp only [eligible, Bool.and_eq_true, decide_eq_true_eq] at hsees
      tauto
    rw [h.keyed e he, htenant, decide_eq_true rfl]
    rfl

variable [DecidableEq S]

/-- Indexes with the same entries of the tenant give a query the same result. -/
theorem compute_tenant {items items' : IndexItems} (h : Content sha items) (h' : Content sha items')
    {query : RetrievalQuery}
    (heq : tenantEntries query.tenantId.val items = tenantEntries query.tenantId.val items')
    (vector : List V) : compute sha unicode attributes ranking query vector (itemsOf items) =
      compute sha unicode attributes ranking query vector (itemsOf items') := by
  unfold compute
  rw [scoredItems_tenant h, scoredItems_tenant h', heq]

/-! ## What a cache key tells of a query -/

/-- The names of the classifications, as texts. -/
def allowedNames (allowed : Finset DataClassification) : List String :=
  (([.confidential, .internal, .public, .restricted] : List DataClassification).filter fun c =>
    decide (c ∈ allowed)).map DataClassification.value

omit [LinearOrder K] [DecidableEq S] in
theorem classificationNames_eq (allowed : Finset DataClassification) :
    classificationNames allowed = (allowedNames allowed).map .str := by
  unfold classificationNames allowedNames
  generalize ([.confidential, .internal, .public, .restricted] : List DataClassification) = names
  induction names with
  | nil => rfl
  | cons c names ih =>
    rw [List.filterMap_cons, List.filter_cons, ih]
    by_cases hc : c ∈ allowed
    · simp [hc]
    · simp [hc]

omit [LinearOrder K] [DecidableEq S] in
theorem mem_allowedNames {allowed : Finset DataClassification} {c : DataClassification} :
    c.value ∈ allowedNames allowed ↔ c ∈ allowed := by
  unfold allowedNames
  constructor
  · intro h
    obtain ⟨c', hc', hvalue⟩ := List.mem_map.mp h
    have hcc : c' = c := by
      cases c' <;> cases c <;> first | rfl | exact absurd hvalue (by decide)
    exact hcc ▸ of_decide_eq_true (List.mem_filter.mp hc').2
  · intro h
    refine List.mem_map.mpr ⟨c, List.mem_filter.mpr ⟨?_, decide_eq_true h⟩, rfl⟩
    cases c <;> simp

/-- The texts that cache keys are digests of. -/
def cacheTexts (sha : Sha256) (queries : RetrievalQuery → Prop) : Set String :=
  {x | ∃ query, queries query ∧ x = canonicalJson (cacheMaterial sha query)}

omit [LinearOrder K] [DecidableEq S] in
/-- **Queries with one cache key may see the same items.** -/
theorem eligible_of_cacheKey {queries : RetrievalQuery → Prop}
    (hfree : sha.CollisionFree (cacheTexts sha queries)) {query query' : RetrievalQuery}
    (h : queries query) (h' : queries query') (hkey : cacheKey sha query = cacheKey sha query')
    (item : IndexedChunk) : eligible attributes query item = eligible attributes query' item := by
  obtain ⟨htenant, hrest⟩ := Prod.mk.inj hkey
  have hmaterial : (cacheMaterial sha query).Same (cacheMaterial sha query') :=
    canonicalJson_inj.mp (hfree.hexdigest ⟨query, h, rfl⟩ ⟨query', h', rfl⟩ (Prod.mk.inj hrest).2)
  have hfield := fun (k : String) (v w : Json) => hmaterial.field (k := k) (v := v) (w := w)
    (by simp only [List.map_cons, List.map_nil]; decide)
  have hprincipal : query.principalRef = query'.principalRef :=
    Subtype.ext (Json.same_str.mp (hfield "principal_ref" _ _ (by simp) (by simp)))
  have hasOf : query.asOf = query'.asOf :=
    Datetime.jsonText_inj (Json.same_str.mp (hfield "as_of" _ _ (by simp) (by simp)))
  have hroles : query.roles = query'.roles := by
    have hsame := hfield "roles" (.arr ((query.roles.map Subtype.val).map .str))
      (.arr ((query'.roles.map Subtype.val).map .str)) (by simp) (by simp)
    exact List.map_injective_iff.mpr Subtype.val_injective (Json.same_strs.mp hsame)
  have hallowed : ∀ c, c ∈ query.allowedClassifications ↔ c ∈ query'.allowedClassifications := by
    intro c
    have hsame := hfield "classifications" (.arr (classificationNames query.allowedClassifications))
      (.arr (classificationNames query'.allowedClassifications)) (by simp) (by simp)
    rw [classificationNames_eq, classificationNames_eq] at hsame
    rw [← mem_allowedNames, Json.same_strs.mp hsame, mem_allowedNames]
  unfold eligible
  rw [show query.tenantId = query'.tenantId from Subtype.ext htenant, hprincipal, hasOf, hroles]
  simp only [hallowed]

/-! ## Calls -/

end

/-- A call of the index, with `invalidate_tenant`. -/
inductive IndexCall (V : Type) (sha : Sha256) where
  | step (op : IndexOp V sha)
  | invalidate (tenantId : String)

/-- The tenant a call is about. -/
def IndexCall.tenant {sha : Sha256} : IndexCall V sha → String
  | .step (.index item _) => item.record.tenantId.val
  | .step (.purge tenantId _) => tenantId
  | .step (.retrieve query _) => query.tenantId.val
  | .invalidate tenantId => tenantId

/-- `InMemoryHybridIndex.invalidate_tenant`. -/
def HybridIndex.invalidateTenant (tenantId : String) : IndexAction S Unit :=
  Exec.modify fun s => { s with cache := forgetTenant s.cache tenantId }

section

variable [DecidableEq S] [LinearOrder K] (sha : Sha256) (unicode : Unicode)
  (attributes : MemoryRecord → RecordAttributes) (ranking : Ranking V S K)

/-- One call: what a retrieval returns, and the state the call leaves. -/
def indexCall (s : HybridIndex S) :
    IndexCall V sha → Except Error (Option (RetrievalResult S)) × HybridIndex S
  | .step op => indexStep sha unicode attributes ranking s op
  | .invalidate tenantId => (do HybridIndex.invalidateTenant tenantId; pure none : IndexAction S _) s

/-- The index after calls. -/
def indexAfter (calls : List (IndexCall V sha)) : HybridIndex S :=
  Machine.final (indexCall sha unicode attributes ranking) (HybridIndex.start S) calls

variable {sha unicode attributes ranking}

/-! ## What is remembered is current -/

/-- A query of the run, on items that are for its tenant those of the index now. -/
def StillHolds (queries : RetrievalQuery → List V → Prop) (s : HybridIndex S) (query : RetrievalQuery)
    (vector : List V) (items : IndexItems) : Prop :=
  queries query vector ∧
    tenantEntries query.tenantId.val items = tenantEntries query.tenantId.val s.items

/-- Whatever the cache holds, it would be computed again. -/
def Current (sha : Sha256) (unicode : Unicode) (attributes : MemoryRecord → RecordAttributes)
    (ranking : Ranking V S K) (queries : RetrievalQuery → List V → Prop) (s : HybridIndex S) : Prop :=
  IndexInvariant sha unicode attributes ranking (StillHolds queries s) s

variable {queries : RetrievalQuery → List V → Prop}

/-- Changing the items of a tenant is safe when what is remembered for it is forgotten. -/
theorem Current.forget {s : HybridIndex S} (h : Current sha unicode attributes ranking queries s)
    {items : IndexItems} {tenant : String} (hcontent : Content sha items)
    (hothers : ∀ other, tenant ≠ other → tenantEntries other items = tenantEntries other s.items) :
    Current sha unicode attributes ranking queries ⟨items, forgetTenant s.cache tenant⟩ := by
  refine ⟨hcontent, fun e he => ?_⟩
  obtain ⟨hmem, hkept⟩ := List.mem_filter.mp he
  obtain ⟨query, vector, old, ⟨hquery, hold⟩, hcontent', hkey, hcomputed⟩ := h.cached e hmem
  have hne : tenant ≠ query.tenantId.val := by
    rintro rfl
    exact of_decide_eq_true hkept (congrArg Prod.fst hkey)
  exact ⟨query, vector, old, ⟨hquery, hold.trans (hothers _ hne).symm⟩, hcontent', hkey, hcomputed⟩

/-- What a tenant shares with the others: the items, and what is remembered for them. -/
def othersView (tenant : String) (s : HybridIndex S) : IndexItems ×
    ({key : CacheKey // key.1 ≠ tenant} → Option (Datetime × RetrievalResult S)) :=
  (s.items, fun key => s.cache.lookup key.val)

/-- **A retrieval changes only what is remembered for its tenant.** -/
theorem retrieve_leaves (query : RetrievalQuery) (vector : List V) :
    Exec.Leaves (othersView query.tenantId.val) (retrieve sha unicode attributes ranking query vector) := by
  have hother : ∀ key : {key : CacheKey // key.1 ≠ query.tenantId.val},
      key.val ≠ cacheKey sha query := fun key heq => key.property (congrArg Prod.fst heq)
  have hfresh : Exec.Leaves (othersView query.tenantId.val)
      (retrieveFresh sha unicode attributes ranking query vector) := by
    refine Exec.leaves_bind Exec.leaves_read fun s => Exec.leaves_bind (Exec.leaves_lift _) fun result => ?_
    refine Exec.leaves_ite (Exec.leaves_bind (Exec.leaves_modify fun s => ?_) fun _ => ?_) ?_
    · exact Prod.ext rfl (funext fun key => AList.lookup_insert_ne (hother key))
    · exact Exec.leaves_pure _
    · exact Exec.leaves_pure _
  unfold retrieve
  generalize retrieveFresh sha unicode attributes ranking query vector = fresh at hfresh ⊢
  refine Exec.leaves_bind (Exec.leaves_require _ _) fun _ => Exec.leaves_bind Exec.leaves_read fun s => ?_
  cases s.cache.lookup (cacheKey sha query) with
  | none => exact hfresh
  | some cached =>
    -- what has expired is taken out first
    refine Exec.leaves_ite (Exec.leaves_pure _) (Exec.leaves_bind (Exec.leaves_modify fun s => ?_) ?_)
    · exact Prod.ext rfl (funext fun key => AList.lookup_erase_ne (hother key))
    · exact fun _ => hfresh

variable (sha unicode attributes ranking) in
theorem indexCall_leaves (s : HybridIndex S) (query : RetrievalQuery) (vector : List V) :
    othersView query.tenantId.val
        (indexCall sha unicode attributes ranking s (.step (.retrieve query vector))).2 =
      othersView query.tenantId.val s := by
  have hrun : Exec.Leaves (othersView query.tenantId.val) (do
      let result ← retrieve sha unicode attributes ranking query vector
      pure (some result) : IndexAction S _) :=
    Exec.leaves_bind (retrieve_leaves query vector) fun _ => Exec.leaves_pure _
  exact (hrun s).state (I := fun s' => othersView query.tenantId.val s' = othersView query.tenantId.val s)

/-- An item is refused, or put in with what is remembered for its tenant forgotten. -/
theorem indexCall_index {I : HybridIndex S → Prop} {s : HybridIndex S} {item : IndexedChunk}
    {valid : ValidChunk sha item.chunk} (h : I s)
    (hnew : I ⟨s.items.insert (item.record.tenantId.val, item.chunk.chunkId.val) item,
      forgetTenant s.cache item.record.tenantId.val⟩) :
    I (indexCall sha unicode attributes ranking s (.step (.index item valid))).2 := by
  have hrun : Exec.Sat (do HybridIndex.index item; pure none : IndexAction S (Option (RetrievalResult S))) s
      (fun _ => I) (fun _ => I) := by
    rw [Exec.sat_bind]
    exact Exec.Sat.check (fun _ => h) fun _ => hnew
  exact hrun.state

/-- **Every call keeps the cache current.** -/
theorem indexCall_current {s : HybridIndex S} (h : Current sha unicode attributes ranking queries s)
    (call : IndexCall V sha)
    (hcall : ∀ query vector, call = .step (.retrieve query vector) → queries query vector) :
    Current sha unicode attributes ranking queries (indexCall sha unicode attributes ranking s call).2 := by
  cases call with
  | invalidate tenantId => exact h.forget h.content fun _ _ => rfl
  | step op =>
    cases op with
    | purge tenantId memoryId =>
      refine h.forget (content_without h.content _) fun other hne => ?_
      exact tenantEntries_other h.content hne
    | index item valid =>
      refine indexCall_index h (h.forget (content_insert h.content valid) fun other hne => ?_)
      exact tenantEntries_insert s.items item hne
    | retrieve query vector =>
      have hasked : queries query vector := hcall query vector rfl
      have hkept := indexStep_keeps h (.retrieve query vector) fun query' vector' heq => by
        cases heq
        exact ⟨hasked, rfl⟩
      have hitems := congrArg Prod.fst (indexCall_leaves sha unicode attributes ranking s query vector)
      refine hkept.mono fun query' _ items hholds => ?_
      exact ⟨hholds.1, hholds.2.trans (congrArg _ hitems.symm)⟩

theorem indexAfter_current (calls : List (IndexCall V sha))
    (hcalls : ∀ query vector, .step (.retrieve query vector) ∈ calls → queries query vector) :
    Current sha unicode attributes ranking queries (indexAfter sha unicode attributes ranking calls) := by
  have hstart : Current sha unicode attributes ranking queries (HybridIndex.start S) :=
    ⟨content_start, fun e he => (by cases he)⟩
  refine Machine.run_invariant (I := Current sha unicode attributes ranking queries)
    (C := fun _ call => ∀ query vector, call = .step (.retrieve query vector) → queries query vector)
    (fun s call h hcall => indexCall_current h call hcall) calls _ hstart ?_
  intro e he query vector heq
  obtain ⟨before, after, hops, -⟩ := Machine.trace_mem he
  refine hcalls query vector ?_
  rw [hops, heq]
  simp

variable (sha unicode attributes ranking) in
/-- Each result that is remembered is what a query of the calls would be given by computing it again, from
    the items there are now. -/
def Coherent (calls : List (IndexCall V sha)) (s : HybridIndex S) : Prop :=
  ∀ e ∈ s.cache.entries, ∃ query vector, .step (.retrieve query vector) ∈ calls ∧
    e.1 = cacheKey sha query ∧
    compute sha unicode attributes ranking query vector (itemsOf s.items) = .ok e.2.2

/-- **The cache is coherent** after a run. -/
theorem cache_coherent (calls : List (IndexCall V sha)) : Coherent sha unicode attributes ranking calls
    (indexAfter sha unicode attributes ranking calls) := by
  intro e he
  have hcurrent : Current sha unicode attributes ranking
      (fun query vector => .step (.retrieve query vector) ∈ calls)
      (indexAfter sha unicode attributes ranking calls) := indexAfter_current calls fun _ _ hmem => hmem
  obtain ⟨query, vector, items, ⟨hasked, hsame⟩, hcontent, hkey, hcomputed⟩ := hcurrent.cached e he
  refine ⟨query, vector, hasked, hkey, ?_⟩
  rw [← compute_tenant hcontent hcurrent.content hsame]
  exact hcomputed

/-! ## What a query is shown -/

/-- A hit shows an item. -/
structure Shows (hit : RetrievalHit S) (item : IndexedChunk) : Prop where
  memory : hit.memoryId = item.record.memoryId
  chunk : hit.chunkId = item.chunk.chunkId
  tier : hit.tier = item.record.tier
  text : hit.text = item.chunk.text
  citation : hit.citation = item.chunk.citation

/-- The hits of a computed result show items that its query may see. -/
theorem compute_hits {query : RetrievalQuery} {vector : List V} {items : IndexItems}
    (hcontent : Content sha items) {result : RetrievalResult S}
    (h : compute sha unicode attributes ranking query vector (itemsOf items) = .ok result)
    {hit : RetrievalHit S} (hhit : hit ∈ result.hits) :
    ∃ item ∈ scoredItems attributes query vector (itemsOf items), Shows hit item := by
  obtain ⟨g, htracks, rfl⟩ := compute_tracks hcontent.valid_items h
  have hplain : hit.plain ∈ g.hits.map RetrievalHit.plain := List.mem_map.mpr ⟨hit, hhit, rfl⟩
  rw [htracks.hits] at hplain
  obtain ⟨p, hp, heq⟩ := List.mem_map.mp hplain
  obtain ⟨hmem, hgenuine⟩ := genuine_of_mem ((Selection.pick_sublist _ _).subset hp)
  have hshown : hit.plain = hitOf ranking query vector p.1 := heq.symm.trans hgenuine
  refine ⟨p.1, hmem, ?_, ?_, ?_, ?_, ?_⟩
  · exact congrArg RetrievalHit.memoryId hshown
  · exact congrArg RetrievalHit.chunkId hshown
  · exact congrArg RetrievalHit.tier hshown
  · exact congrArg RetrievalHit.text hshown
  · exact congrArg RetrievalHit.citation hshown

/-- **Every hit, cached or not, shows an item of the index now**, eligible for a query of the same key. -/
theorem retrieve_hits {s s' : HybridIndex S} (h : Current sha unicode attributes ranking queries s)
    {query : RetrievalQuery} {vector : List V} {result : RetrievalResult S}
    (hrun : retrieve sha unicode attributes ranking query vector s = (.ok result, s'))
    {hit : RetrievalHit S} (hhit : hit ∈ result.hits) :
    ∃ query', ((∃ vector', queries query' vector') ∨ query' = query) ∧
      cacheKey sha query = cacheKey sha query' ∧
      ∃ item ∈ itemsOf s.items, eligible attributes query' item = true ∧ Shows hit item := by
  have heligible : ∀ {query' : RetrievalQuery} {vector' : List V} {item : IndexedChunk},
      item ∈ scoredItems attributes query' vector' (itemsOf s.items) →
        item ∈ itemsOf s.items ∧ eligible attributes query' item = true := by
    intro query' vector' item hitem
    obtain ⟨hmem, hsees⟩ := List.mem_filter.mp hitem
    exact ⟨hmem, (Bool.and_eq_true _ _ ▸ hsees).1⟩
  have hsub : ∀ (query : RetrievalQuery) (vector : List V) (items : IndexItems),
      StillHolds queries s query vector items → True := fun _ _ _ _ => trivial
  rcases ((retrieve_sat h hsub trivial).ok hrun).2 with
    ⟨cached, rfl, query', vector', items, ⟨hquery, hsame⟩, hcontent, hkey, hcomputed⟩ | hcomputed
  · obtain ⟨item, hitem, hshows⟩ := compute_hits hcontent hcomputed hhit
    -- the items it was computed from are, for this tenant, those of the index
    rw [scoredItems_tenant hcontent, hsame, ← scoredItems_tenant h.content] at hitem
    exact ⟨query', .inl ⟨vector', hquery⟩, hkey, item, (heligible hitem).1, (heligible hitem).2, hshows⟩
  · obtain ⟨item, hitem, hshows⟩ := compute_hits h.content hcomputed hhit
    exact ⟨query, .inr rfl, rfl, item, (heligible hitem).1, (heligible hitem).2, hshows⟩

/-- The queries of a run, and the one after it. -/
def AskedOr (calls : List (IndexCall V sha)) (query query' : RetrievalQuery) : Prop :=
  (∃ vector, .step (.retrieve query' vector) ∈ calls) ∨ query' = query

/-- **A retrieval shows only what the query may see, and only what is in the index now.** -/
theorem retrieval_isolated {calls : List (IndexCall V sha)} {query : RetrievalQuery} {vector : List V}
    (hfree : sha.CollisionFree (cacheTexts sha (AskedOr calls query))) {result : RetrievalResult S}
    {s' : HybridIndex S} (h : retrieve sha unicode attributes ranking query vector
      (indexAfter sha unicode attributes ranking calls) = (.ok result, s')) :
    ∀ hit ∈ result.hits, ∃ item ∈ itemsOf (indexAfter sha unicode attributes ranking calls).items,
      eligible attributes query item = true ∧ ValidChunk sha item.chunk ∧ Shows hit item := by
  intro hit hhit
  have hcurrent : Current sha unicode attributes ranking (fun query' _ => AskedOr calls query query')
      (indexAfter sha unicode attributes ranking calls) :=
    indexAfter_current calls fun query' vector' hmem => .inl ⟨vector', hmem⟩
  obtain ⟨query', hquery', hkey, item, hitem, heligible, hshows⟩ := retrieve_hits hcurrent h hhit
  refine ⟨item, hitem, ?_, hcurrent.content.valid_items item hitem, hshows⟩
  rw [← heligible]
  refine eligible_of_cacheKey hfree (.inr rfl) ?_ hkey item
  rcases hquery' with ⟨_, hasked⟩ | rfl
  · exact hasked
  · exact .inr rfl

end

def diskCalls : List (IndexCall Nat diskSha) :=
  [.step diskOne, .step (diskTwo ⟨"m2", computed⟩)]

def diskAnswer (calls : List (IndexCall Nat diskSha)) : Except Error (RetrievalResult Nat) × HybridIndex Nat :=
  retrieve diskSha asciiUnicode openAttributes flatRanking (diskQuery diskSha) [0, 1]
    (indexAfter diskSha asciiUnicode openAttributes flatRanking calls)

/-- The memories of the hits of an answer. -/
def shownMemories (answer : Except Error (RetrievalResult Nat) × HybridIndex Nat) : Option (List String) :=
  answer.1.toOption.map fun result => result.hits.map fun hit => hit.memoryId.val

theorem retrieval_isolated_sample : ∃ result s', diskAnswer diskCalls = (.ok result, s') ∧
    result.hits.length = 2 ∧
    ∀ hit ∈ result.hits,
      ∃ item ∈ itemsOf (indexAfter diskSha asciiUnicode openAttributes flatRanking diskCalls).items,
        eligible openAttributes (diskQuery diskSha) item = true ∧ ValidChunk diskSha item.chunk ∧
          Shows hit item := by
  have hshown : shownMemories (diskAnswer diskCalls) = some ["m1", "m2"] := by decide +kernel
  have hfree : diskSha.CollisionFree (cacheTexts diskSha (AskedOr diskCalls (diskQuery diskSha))) := by
    refine Sha256.CollisionFree.of_subsingleton ?_
    have hquery : ∀ query, AskedOr diskCalls (diskQuery diskSha) query → query = diskQuery diskSha := by
      rintro query (⟨vector, hmem⟩ | rfl)
      · rcases List.mem_cons.mp hmem with heq | hmem
        · cases heq
        · cases List.mem_singleton.mp hmem
      · rfl
    rintro x ⟨query, hx, rfl⟩ y ⟨query', hy, rfl⟩
    rw [hquery query hx, hquery query' hy]
  rcases hrun : diskAnswer diskCalls with ⟨answer, s'⟩
  rw [hrun] at hshown
  cases answer with
  | error e => cases hshown
  | ok result =>
    refine ⟨result, s', rfl, ?_, retrieval_isolated hfree hrun⟩
    have hlength := congrArg List.length (Option.some.inj hshown)
    rwa [List.length_map] at hlength

section

variable [DecidableEq S] [LinearOrder K] {sha : Sha256} {unicode : Unicode}
  {attributes : MemoryRecord → RecordAttributes} {ranking : Ranking V S K}

/-! ## Purged memories -/

/-- No item is of this memory. -/
def AbsentMemory (tenantId memoryId : String) (items : IndexItems) : Prop :=
  ∀ item ∈ itemsOf items, item.record.key ≠ (tenantId, memoryId)

/-- Only indexing the memory brings it back. -/
theorem indexCall_absent {tenantId memoryId : String} (s : HybridIndex S) (call : IndexCall V sha)
    (h : AbsentMemory tenantId memoryId s.items)
    (hcall : ∀ item valid, call = .step (.index item valid) → item.record.key ≠ (tenantId, memoryId)) :
    AbsentMemory tenantId memoryId (indexCall sha unicode attributes ranking s call).2.items := by
  have habsent : ∀ s' : HybridIndex S, s'.items = s.items → AbsentMemory tenantId memoryId s'.items :=
    fun s' hitems => hitems ▸ h
  cases call with
  | invalidate tenantId' => exact h
  | step op =>
    cases op with
    | purge tenantId' memoryId' =>
      intro item hitem
      obtain ⟨e, he, rfl⟩ := List.mem_map.mp hitem
      exact h _ (List.mem_map.mpr ⟨e, List.mem_of_mem_filter he, rfl⟩)
    | index item valid =>
      refine indexCall_index (I := fun s : HybridIndex S => AbsentMemory tenantId memoryId s.items) h ?_
      intro found hfound
      obtain ⟨e, he, rfl⟩ := List.mem_map.mp hfound
      rw [AList.entries_insert] at he
      rcases List.mem_cons.mp he with rfl | he
      · exact hcall item valid rfl
      · exact h _ (List.mem_map.mpr ⟨e, (List.kerase_sublist _ _).subset he, rfl⟩)
    | retrieve query vector =>
      exact habsent _ (congrArg Prod.fst (indexCall_leaves sha unicode attributes ranking s query vector))

/-- **A purged memory is not served again**, from the items or the cache, until it is indexed again. -/
theorem purged_unserved {before after : List (IndexCall V sha)} {tenantId memoryId : String}
    (hafter : ∀ item valid, .step (.index item valid) ∈ after → item.record.key ≠ (tenantId, memoryId))
    {query : RetrievalQuery} (htenant : query.tenantId.val = tenantId) {vector : List V}
    {result : RetrievalResult S} {s' : HybridIndex S}
    (h : retrieve sha unicode attributes ranking query vector (indexAfter sha unicode attributes ranking
      (before ++ .step (.purge tenantId memoryId) :: after)) = (.ok result, s')) :
    ∀ hit ∈ result.hits, hit.memoryId.val ≠ memoryId := by
  intro hit hhit hmemory
  have hcurrent : Current sha unicode attributes ranking (fun _ _ => True)
      (indexAfter sha unicode attributes ranking (before ++ .step (.purge tenantId memoryId) :: after)) :=
    indexAfter_current _ fun _ _ _ => trivial
  have habsent : AbsentMemory tenantId memoryId (indexAfter sha unicode attributes ranking
      (before ++ .step (.purge tenantId memoryId) :: after)).items := by
    rw [indexAfter, Machine.final_append, Machine.final]
    refine Machine.run_invariant (I := fun s : HybridIndex S => AbsentMemory tenantId memoryId s.items)
      (C := fun _ call => ∀ item valid, call = .step (.index item valid) →
        item.record.key ≠ (tenantId, memoryId))
      (fun s call habsent hcall => indexCall_absent s call habsent hcall) after _ ?_ ?_
    · intro item hitem
      obtain ⟨e, he, rfl⟩ := List.mem_map.mp hitem
      exact of_decide_eq_true (List.mem_filter.mp he).2
    · intro e he item valid heq
      obtain ⟨xs, ys, hops, -⟩ := Machine.trace_mem he
      refine hafter item valid ?_
      rw [hops, heq]
      simp
  obtain ⟨query', -, hkey, item, hitem, heligible, hshows⟩ := retrieve_hits hcurrent h hhit
  refine habsent item hitem (Prod.ext ?_ ?_)
  · have hitem' : item.record.tenantId = query'.tenantId := by
      simp only [eligible, Bool.and_eq_true, decide_eq_true_eq] at heligible
      tauto
    have hquery : query.tenantId.val = query'.tenantId.val := (Prod.mk.inj hkey).1
    exact (congrArg Subtype.val hitem').trans (hquery.symm.trans htenant)
  · exact (congrArg Subtype.val hshows.memory).symm.trans hmemory

end

theorem purged_unserved_sample : ∃ result s',
    diskAnswer (diskCalls ++ [.step (.purge chunkTenant.val "m1")]) = (.ok result, s') ∧
    result.hits.length = 1 ∧ ∀ hit ∈ result.hits, hit.memoryId.val ≠ "m1" := by
  have hshown : shownMemories (diskAnswer (diskCalls ++ [.step (.purge chunkTenant.val "m1")])) =
      some ["m2"] := by decide +kernel
  rcases hrun : diskAnswer (diskCalls ++ [.step (.purge chunkTenant.val "m1")]) with ⟨answer, s'⟩
  rw [hrun] at hshown
  cases answer with
  | error e => cases hshown
  | ok result =>
    refine ⟨result, s', hrun, ?_, purged_unserved (fun _ _ hmem => absurd hmem List.not_mem_nil) rfl hrun⟩
    have hlength := congrArg List.length (Option.some.inj hshown)
    rwa [List.length_map] at hlength

section

variable [DecidableEq S] [LinearOrder K] {sha : Sha256} {unicode : Unicode}
  {attributes : MemoryRecord → RecordAttributes} {ranking : Ranking V S K}

/-! ## Tenants do not interfere -/

/-- The indexes are the same to a tenant. -/
structure SameFor (sha : Sha256) (tenant : String) (s t : HybridIndex S) : Prop where
  left : Content sha s.items
  right : Content sha t.items
  items : tenantEntries tenant s.items = tenantEntries tenant t.items
  cache : ∀ key : CacheKey, key.1 = tenant → s.cache.lookup key = t.cache.lookup key

omit [DecidableEq S] [LinearOrder K] in
theorem lookup_forgetTenant (cache : ResultCache S) (tenant : String) (key : CacheKey) :
    (forgetTenant cache tenant).lookup key = if key.1 = tenant then none else cache.lookup key := by
  ext entry
  have hkept : entry ∈ (forgetTenant cache tenant).lookup key ↔
      ⟨key, entry⟩ ∈ cache.entries ∧ key.1 ≠ tenant := by
    rw [AList.mem_lookup_iff]
    exact (List.mem_filter).trans (and_congr_right fun _ => decide_eq_true_iff)
  show entry ∈ (forgetTenant cache tenant).lookup key ↔ _
  rw [hkept]
  split
  · rename_i htenant
    simp [htenant]
  · rename_i htenant
    exact (and_iff_left htenant).trans AList.mem_lookup_iff.symm

omit [DecidableEq S] [LinearOrder K] in
/-- Both forget what they remember for a tenant. -/
theorem SameFor.forget {tenant touched : String} {s t : HybridIndex S} (h : SameFor sha tenant s t)
    {items items' : IndexItems} (hleft : Content sha items) (hright : Content sha items')
    (hitems : tenantEntries tenant items = tenantEntries tenant items') :
    SameFor sha tenant ⟨items, forgetTenant s.cache touched⟩
      ⟨items', forgetTenant t.cache touched⟩ := by
  refine ⟨hleft, hright, hitems, fun key hkey => ?_⟩
  show (forgetTenant s.cache touched).lookup key = (forgetTenant t.cache touched).lookup key
  rw [lookup_forgetTenant, lookup_forgetTenant, h.cache key hkey]

omit [DecidableEq S] [LinearOrder K] in
/-- Both change what they remember under one key. -/
theorem SameFor.recache {tenant : String} {s t : HybridIndex S} (h : SameFor sha tenant s t)
    {f : ResultCache S → ResultCache S}
    (hf : ∀ key : CacheKey, key.1 = tenant → (f s.cache).lookup key = (f t.cache).lookup key) :
    SameFor sha tenant { s with cache := f s.cache } { t with cache := f t.cache } :=
  ⟨h.left, h.right, h.items, hf⟩

/-- **A tenant's retrieval is the same on indexes that are the same to it.** -/
theorem retrieve_alike {s t : HybridIndex S} {query : RetrievalQuery}
    (h : SameFor sha query.tenantId.val s t) (vector : List V) :
    Exec.Alike (SameFor sha query.tenantId.val) (retrieve sha unicode attributes ranking query vector)
      (retrieve sha unicode attributes ranking query vector) s t := by
  have hfresh : ∀ s t : HybridIndex S, SameFor sha query.tenantId.val s t →
      Exec.Alike (SameFor sha query.tenantId.val) (retrieveFresh sha unicode attributes ranking query vector)
        (retrieveFresh sha unicode attributes ranking query vector) s t := by
    intro s t h
    refine Exec.alike_read ?_
    dsimp only
    rw [compute_tenant h.left h.right h.items]
    refine Exec.alike_bind (Exec.alike_lift _ h) fun result s t h => ?_
    by_cases hremember : 0 < query.policy.cacheTtlSeconds
    · rw [if_pos hremember]
      refine Exec.alike_bind (Exec.alike_modify (h.recache fun key hkey => ?_)) fun _ s t h => ?_
      · rcases eq_or_ne key (cacheKey sha query) with rfl | hne
        · rw [AList.lookup_insert, AList.lookup_insert]
        · rw [AList.lookup_insert_ne hne, AList.lookup_insert_ne hne, h.cache key hkey]
      · exact Exec.alike_pure _ h
    · rw [if_neg hremember]
      exact Exec.alike_pure _ h
  unfold retrieve
  generalize retrieveFresh sha unicode attributes ranking query vector = fresh at hfresh ⊢
  refine Exec.alike_check h (Exec.alike_read ?_)
  rw [h.cache (cacheKey sha query) rfl]
  cases t.cache.lookup (cacheKey sha query) with
  | none => exact hfresh s t h
  | some cached =>
    dsimp only
    by_cases hlive : query.requestedAt < cached.1
    · rw [if_pos hlive]
      exact Exec.alike_pure _ h
    · rw [if_neg hlive]
      refine Exec.alike_bind (Exec.alike_modify (h.recache fun key hkey => ?_)) fun _ s t h => hfresh s t h
      rcases eq_or_ne key (cacheKey sha query) with rfl | hne
      · rw [AList.lookup_erase, AList.lookup_erase]
      · rw [AList.lookup_erase_ne hne, AList.lookup_erase_ne hne, h.cache key hkey]

/-- A tenant's own call has one result on both, and leaves them the same to it. -/
theorem indexCall_own {s t : HybridIndex S} {tenant : String} (h : SameFor sha tenant s t)
    {call : IndexCall V sha} (hown : call.tenant = tenant) :
    Exec.Alike (SameFor sha tenant) (fun s => indexCall sha unicode attributes ranking s call)
      (fun s => indexCall sha unicode attributes ranking s call) s t := by
  subst hown
  cases call with
  | invalidate tenantId => exact ⟨rfl, h.forget h.left h.right h.items⟩
  | step op =>
    cases op with
    | retrieve query vector =>
      exact Exec.alike_bind (retrieve_alike h vector) fun _ _ _ h => Exec.alike_pure _ h
    | purge tenantId memoryId =>
      refine ⟨rfl, h.forget (content_without h.left _) (content_without h.right _) ?_⟩
      show tenantEntries tenantId _ = tenantEntries tenantId _
      rw [tenantEntries_without, tenantEntries_without]
      exact congrArg _ h.items
    | index item valid =>
      refine Exec.alike_bind (Exec.alike_check h (Exec.alike_modify ?_)) fun _ _ _ h => Exec.alike_pure _ h
      refine h.forget (content_insert h.left valid) (content_insert h.right valid) ?_
      have hentries := fun items =>
        tenantEntries_own (item.record.tenantId.val, item.chunk.chunkId.val) items item
      refine (hentries s.items).trans (Eq.trans ?_ (hentries t.items).symm)
      exact congrArg (fun entries => _ :: List.kerase _ entries) h.items

/-- Calls of others leave an index the same to the tenant. -/
theorem indexCall_other {s t : HybridIndex S} {tenant : String} (h : SameFor sha tenant s t)
    {call : IndexCall V sha} (hother : call.tenant ≠ tenant) :
    SameFor sha tenant (indexCall sha unicode attributes ranking s call).2 t := by
  have hforget : ∀ items : IndexItems, Content sha items →
      tenantEntries tenant items = tenantEntries tenant s.items →
      SameFor sha tenant ⟨items, forgetTenant s.cache call.tenant⟩ t := by
    intro items hcontent hitems
    refine ⟨hcontent, h.right, hitems.trans h.items, fun key hkey => ?_⟩
    show (forgetTenant s.cache call.tenant).lookup key = _
    rw [lookup_forgetTenant, if_neg (fun heq => hother (heq.symm.trans hkey)), h.cache key hkey]
  cases call with
  | invalidate tenantId => exact hforget s.items h.left rfl
  | step op =>
    cases op with
    | purge tenantId memoryId =>
      exact hforget _ (content_without h.left _) (tenantEntries_other h.left hother)
    | index item valid =>
      refine indexCall_index (I := fun s : HybridIndex S => SameFor sha tenant s t) h ?_
      exact hforget _ (content_insert h.left valid) (tenantEntries_insert s.items item hother)
    | retrieve query vector =>
      obtain ⟨hitems, hcache⟩ :=
        Prod.mk.inj (indexCall_leaves sha unicode attributes ranking s query vector)
      refine ⟨hitems ▸ h.left, h.right, (congrArg _ hitems).trans h.items, fun key hkey => ?_⟩
      have hlookup := congrFun hcache ⟨key, fun heq => hother (heq.symm.trans hkey)⟩
      exact hlookup.trans (h.cache key hkey)

/-- **Tenants do not interfere.**  The results of a tenant's calls are those of the run in which only they
    are made. -/
theorem tenants_independent (tenant : String) (calls : List (IndexCall V sha)) :
    ((Machine.trace (indexCall sha unicode attributes ranking) (HybridIndex.start S) calls).filter
        fun e => e.op.tenant = tenant).map Machine.Entry.result =
      (Machine.trace (indexCall sha unicode attributes ranking) (HybridIndex.start S)
        (calls.filter fun call => call.tenant = tenant)).map Machine.Entry.result :=
  Machine.own_results (indexCall sha unicode attributes ranking) (fun call => call.tenant = tenant)
    (R := SameFor sha tenant) (fun _ _ _ h hown => indexCall_own h hown)
    (fun _ _ _ h hother => indexCall_other h hother) calls
    ⟨content_start, content_start, rfl, fun _ _ => rfl⟩

end

end Memory

end Aegis
