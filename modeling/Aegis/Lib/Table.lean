/-
  TABLES WITH DISTINCT KEYS, under insertion of a whole list.

  `insertAll key value d ms` assigns `d[key m] = value m` for every `m` of `ms` in order.  What a
  development asks is which entry a key has afterwards: the old one when no `m` has that key
  (`lookup_insertAll_of_notMem`), and otherwise the value of some `m` that has it
  (`lookup_insertAll_of_mem`).

  `count p d` is the number of entries with a property; it is compared between tables key by key
  (`count_congr`).
-/
import Mathlib

namespace Aegis

namespace Table

variable {κ ν μ : Type} [DecidableEq κ]

/-- `for m in ms: d[key(m)] = value(m)`. -/
def insertAll (key : μ → κ) (value : μ → ν) (d : AList (fun _ : κ => ν)) (ms : List μ) :
    AList (fun _ : κ => ν) :=
  ms.foldl (fun d m => d.insert (key m) (value m)) d

variable {key : μ → κ} {value : μ → ν} {d : AList (fun _ : κ => ν)} {k : κ}

theorem lookup_insertAll_of_notMem {ms : List μ} (h : ∀ m ∈ ms, key m ≠ k) :
    (insertAll key value d ms).lookup k = d.lookup k := by
  induction ms generalizing d with
  | nil => rfl
  | cons m ms ih =>
    show (insertAll key value (d.insert (key m) (value m)) ms).lookup k = _
    rw [ih (fun m' hm' => h m' (List.mem_cons_of_mem _ hm'))]
    exact AList.lookup_insert_ne (Ne.symm (h m List.mem_cons_self))

theorem mem_insertAll {ms : List μ} :
    k ∈ insertAll key value d ms ↔ k ∈ d ∨ ∃ m ∈ ms, key m = k := by
  induction ms generalizing d with
  | nil => exact ⟨.inl, fun h => h.elim id fun ⟨m, hm, _⟩ => absurd hm List.not_mem_nil⟩
  | cons m ms ih =>
    show k ∈ insertAll key value (d.insert (key m) (value m)) ms ↔ _
    rw [ih, AList.mem_insert, List.exists_mem_cons_iff, eq_comm (a := k), or_assoc, or_left_comm]

theorem lookup_insertAll_of_mem (value : μ → ν) {ms : List μ} (h : ∃ m ∈ ms, key m = k) :
    ∃ m ∈ ms, key m = k ∧ (insertAll key value d ms).lookup k = some (value m) := by
  induction ms generalizing d with
  | nil => obtain ⟨m, hm, -⟩ := h; exact absurd hm (by simp)
  | cons m ms ih =>
    by_cases htail : ∃ m' ∈ ms, key m' = k
    · obtain ⟨m', hm', hkey, hlookup⟩ := ih (d := d.insert (key m) (value m)) htail
      exact ⟨m', List.mem_cons_of_mem _ hm', hkey, hlookup⟩
    · -- no later key is `k`, so the first one is and its value stays
      push Not at htail
      obtain ⟨m', hm', hkey⟩ := h
      rcases List.mem_cons.mp hm' with rfl | hm'
      · refine ⟨m', List.mem_cons_self, hkey, ?_⟩
        show (insertAll key value (d.insert (key m') (value m')) ms).lookup k = _
        rw [lookup_insertAll_of_notMem htail, ← hkey]
        exact AList.lookup_insert d
      · exact absurd hkey (htail m' hm')

/-- The number of entries with a property: `sum(1 for v in d.values() if p(v))`. -/
def count (p : ν → Bool) (d : AList (fun _ : κ => ν)) : Nat := d.entries.countP fun e => p e.2

theorem count_insert_of_notMem {p : ν → Bool} {v : ν} (h : k ∉ d) :
    count p (d.insert k v) = count p d + if p v = true then 1 else 0 := by
  unfold count
  rw [AList.entries_insert_of_notMem h, List.countP_cons]

/-- Inserting a list under new keys adds what it holds of the property. -/
theorem count_insertAll {p : ν → Bool} {ms : List μ} (hnodup : (ms.map key).Nodup)
    (hfresh : ∀ m ∈ ms, key m ∉ d) :
    count p (insertAll key value d ms) = count p d + ms.countP (fun m => p (value m)) := by
  induction ms generalizing d with
  | nil => rfl
  | cons m ms ih =>
    obtain ⟨hm, hrest⟩ := List.nodup_cons.mp hnodup
    show count p (insertAll key value (d.insert (key m) (value m)) ms) = _
    have hfresh' : ∀ m' ∈ ms, key m' ∉ d.insert (key m) (value m) := by
      intro m' hm' hmem
      rcases (AList.mem_insert d).mp hmem with heq | hd
      · exact hm (heq ▸ List.mem_map_of_mem hm')
      · exact hfresh m' (List.mem_cons_of_mem _ hm') hd
    rw [ih hrest hfresh', count_insert_of_notMem (hfresh m List.mem_cons_self), List.countP_cons]
    omega

theorem count_eq_keys (p : ν → Bool) (d : AList (fun _ : κ => ν)) :
    count p d = d.keys.countP fun k => (d.lookup k).any p := by
  unfold count AList.keys List.keys
  rw [List.countP_map]
  refine List.countP_congr fun e he => ?_
  have hlookup : d.lookup e.1 = some e.2 := AList.mem_lookup_iff.mpr he
  simp only [Function.comp_apply, hlookup, Option.any_some]

/-- Tables whose entries agree on `p` key by key have the same count. -/
theorem count_congr {p : ν → Bool} {d' : AList (fun _ : κ => ν)}
    (h : ∀ k, (d'.lookup k).map p = (d.lookup k).map p) : count p d' = count p d := by
  have hmem : ∀ k, k ∈ d'.keys ↔ k ∈ d.keys := by
    intro k
    rw [← AList.mem_keys, ← AList.mem_keys, ← AList.lookup_isSome, ← AList.lookup_isSome,
      ← Option.isSome_map (f := p), h k, Option.isSome_map]
  have hperm : d'.keys.Perm d.keys :=
    (List.perm_ext_iff_of_nodup d'.keys_nodup d.keys_nodup).mpr hmem
  rw [count_eq_keys, count_eq_keys, hperm.countP_eq]
  refine List.countP_congr fun k _ => ?_
  have hany : ∀ o : Option ν, o.any p = (o.map p).getD false := by
    intro o; cases o with
    | none => rfl
    | some v => rfl
  rw [hany, hany, h k]

/-- Keys whose entries have the property are no more than the count. -/
theorem card_le_count {p : ν → Bool} {ks : Finset κ}
    (h : ∀ k ∈ ks, ∃ v, d.lookup k = some v ∧ p v = true) : ks.card ≤ count p d := by
  have hsub : ks ⊆ (d.keys.filter fun k => (d.lookup k).any p).toFinset := by
    intro k hk
    obtain ⟨v, hv, hp⟩ := h k hk
    have hkeys : k ∈ d.keys := AList.mem_keys.mp (AList.lookup_isSome.mp (by rw [hv]; rfl))
    rw [List.mem_toFinset, List.mem_filter]
    exact ⟨hkeys, by rw [hv]; exact hp⟩
  calc ks.card ≤ (d.keys.filter fun k => (d.lookup k).any p).toFinset.card :=
        Finset.card_le_card hsub
    _ ≤ (d.keys.filter fun k => (d.lookup k).any p).length := List.toFinset_card_le _
    _ = count p d := by rw [count_eq_keys, List.countP_eq_length_filter]

end Table

end Aegis
