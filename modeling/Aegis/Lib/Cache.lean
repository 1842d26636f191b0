/-
  A TABLE THAT FORGETS ITS OLDEST ENTRY.

  Entries stand in the order in which they were inserted; a table at its bound gives up the first one before
  it takes another.  `Holds` says that a key has its value, and that the keys inserted after it are distinct
  and among those `used`.  Of one key no two entries are ever inserted after a third that is still there, so
  the entry stays as long as fewer OTHER keys than the bound are used (`Holds.insert`).
-/
import Mathlib

namespace Aegis

namespace Cache

variable {κ ν : Type} [DecidableEq κ] {bound : Nat} {table : List (κ × ν)} {k k' : κ} {v v' : ν}
  {used used' : Finset κ}

/-- A new entry; a full table forgets its oldest one. -/
def insert (bound : Nat) (k : κ) (v : ν) (table : List (κ × ν)) : List (κ × ν) :=
  (if bound ≤ table.length then table.tail else table) ++ [(k, v)]

/-- The entry of `k`, and after it entries of distinct other keys that were used. -/
def Holds (table : List (κ × ν)) (k : κ) (v : ν) (used : Finset κ) : Prop :=
  ∃ older newer, table = older ++ (k, v) :: newer ∧ (∀ e ∈ older, e.1 ≠ k) ∧
    (newer.map Prod.fst).Nodup ∧ ∀ e ∈ newer, e.1 ∈ used.erase k

theorem Holds.mono (h : Holds table k v used) (hsub : used ⊆ used') : Holds table k v used' := by
  obtain ⟨older, newer, hsplit, holder, hnodup, hnewer⟩ := h
  exact ⟨older, newer, hsplit, holder, hnodup, fun e he => Finset.erase_subset_erase k hsub (hnewer e he)⟩

section

variable [BEq κ] [LawfulBEq κ]

theorem Holds.lookup (h : Holds table k v used) : table.lookup k = some v := by
  obtain ⟨older, newer, rfl, holder, -, -⟩ := h
  induction older with
  | nil => exact List.lookup_cons_self
  | cons e older ih =>
    have hne : e.1 ≠ k := holder e List.mem_cons_self
    rw [List.cons_append, List.lookup_cons, beq_eq_false_iff_ne.mpr hne.symm]
    exact ih fun e' he' => holder e' (List.mem_cons_of_mem _ he')

omit [DecidableEq κ] in
theorem ne_of_lookup_none (h : table.lookup k = none) {e : κ × ν} (he : e ∈ table) : e.1 ≠ k := by
  induction table with
  | nil => cases he
  | cons a table ih =>
    rw [List.lookup_cons] at h
    split at h
    · cases h
    · rename_i hne
      rcases List.mem_cons.mp he with rfl | he
      · exact fun heq => beq_eq_false_iff_ne.mp hne heq.symm
      · exact ih h he

/-- A key is there once it has been inserted. -/
theorem holds_insert (hnew : table.lookup k = none) : Holds (insert bound k v table) k v ∅ := by
  refine ⟨if bound ≤ table.length then table.tail else table, [], rfl, fun e he => ?_, List.nodup_nil,
    fun e he => by cases he⟩
  refine ne_of_lookup_none hnew ?_
  split at he
  · exact List.mem_of_mem_tail he
  · exact he

/-- **An entry outlives the insertion of another key** while fewer other keys than the bound are used. -/
theorem Holds.insert (h : Holds table k v used) (hnew : table.lookup k' = none) (hused : k' ∈ used)
    (hroom : (used.erase k).card < bound) : Holds (insert bound k' v' table) k v used := by
  have hne : k' ≠ k := by
    rintro rfl
    rw [h.lookup] at hnew
    cases hnew
  obtain ⟨older, newer, rfl, holder, hnodup, hnewer⟩ := h
  have hfresh : k' ∉ newer.map Prod.fst := by
    rintro hmem
    obtain ⟨e, he, rfl⟩ := List.mem_map.mp hmem
    exact ne_of_lookup_none hnew (List.mem_append_right _ (List.mem_cons_of_mem _ he)) rfl
  have hnodup' : ((newer ++ [(k', v')]).map Prod.fst).Nodup := by
    rw [List.map_append]
    refine hnodup.append (List.nodup_singleton k') fun a ha hmem => ?_
    obtain rfl : a = k' := List.mem_singleton.mp hmem
    exact hfresh ha
  have hnewer' : ∀ e ∈ newer ++ [(k', v')], e.1 ∈ used.erase k := by
    intro e he
    rcases List.mem_append.mp he with he | he
    · exact hnewer e he
    · rw [List.mem_singleton.mp he]
      exact Finset.mem_erase.mpr ⟨hne, hused⟩
  -- the newer keys are distinct other keys, the inserted one included
  have hcount : (newer ++ [(k', v')]).length ≤ (used.erase k).card := by
    rw [← List.length_map (f := Prod.fst), ← List.toFinset_card_of_nodup hnodup']
    refine Finset.card_le_card fun a ha => ?_
    obtain ⟨e, he, rfl⟩ := List.mem_map.mp (List.mem_toFinset.mp ha)
    exact hnewer' e he
  rw [List.length_append, List.length_singleton] at hcount
  unfold Cache.insert
  split
  · rename_i hfull
    cases older with
    | nil =>
      rw [List.nil_append, List.length_cons] at hfull
      omega
    | cons e older =>
      refine ⟨older, newer ++ [(k', v')], ?_, fun a ha => holder a (List.mem_cons_of_mem _ ha), hnodup', hnewer'⟩
      rw [List.cons_append, List.tail_cons, List.append_assoc, List.cons_append]
  · refine ⟨older, newer ++ [(k', v')], ?_, holder, hnodup', hnewer'⟩
    rw [List.append_assoc, List.cons_append]

end

end Cache

end Aegis
