/-
  MERGING RECORDS BY A KEY.

  A state that several branches write is merged from their records: the last record under a key stays,
  and what stays is sorted.  `collect` is the dict, filled from left to right; `mergeBy` sorts it.

  Branch outputs are merged in some order and grouping (`Grouping`).  When no two different records
  share a key, the result is a function of the set of records (`merge_eq`): a sorted list of distinct
  members is determined by its members.  When two do, the order shows (`collect_order`).
-/
import Mathlib

namespace Aegis

namespace Merge

variable {α κ ω : Type}

/-- No two different records share a key. -/
def Consistent (key : α → κ) (records : List α) : Prop :=
  ∀ a ∈ records, ∀ b ∈ records, key a = key b → a = b

theorem Consistent.of_subset {key : α → κ} {xs ys : List α} (h : Consistent key ys)
    (hsub : ∀ x ∈ xs, x ∈ ys) : Consistent key xs := fun a ha b hb => h a (hsub a ha) b (hsub b hb)

variable [DecidableEq κ] [LinearOrder ω]

section Collect

variable (key : α → κ)

/-- `merged[key(r)] = r`. -/
def put (r : α) : List α → List α
  | [] => [r]
  | x :: xs => if key x = key r then r :: xs else x :: put r xs

/-- `{key(r): r for r in records}`: its values. -/
def collect (records : List α) : List α := records.foldl (fun merged r => put key r merged) []

variable {key}

theorem mem_put {r x : α} {xs : List α} (hnodup : (xs.map key).Nodup) :
    x ∈ put key r xs ↔ x = r ∨ x ∈ xs ∧ key x ≠ key r := by
  induction xs with
  | nil => simp [put]
  | cons y ys ih =>
    rw [List.map_cons, List.nodup_cons] at hnodup
    unfold put
    split
    · rename_i hkey
      rw [List.mem_cons, List.mem_cons]
      constructor
      · rintro (rfl | hx)
        · exact .inl rfl
        · refine .inr ⟨.inr hx, fun heq => hnodup.1 ?_⟩
          rw [hkey, ← heq]
          exact List.mem_map_of_mem hx
      · rintro (rfl | ⟨rfl | hx, hne⟩)
        · exact .inl rfl
        · exact absurd hkey hne
        · exact .inr hx
    · rename_i hkey
      rw [List.mem_cons, ih hnodup.2, List.mem_cons]
      constructor
      · rintro (rfl | rfl | ⟨hx, hne⟩)
        · exact .inr ⟨.inl rfl, hkey⟩
        · exact .inl rfl
        · exact .inr ⟨.inr hx, hne⟩
      · rintro (rfl | ⟨rfl | hx, hne⟩)
        · exact .inr (.inl rfl)
        · exact .inl rfl
        · exact .inr (.inr ⟨hx, hne⟩)

theorem put_keys {r : α} {xs : List α} (hnodup : (xs.map key).Nodup) : ((put key r xs).map key).Nodup := by
  induction xs with
  | nil => exact List.nodup_singleton _
  | cons y ys ih =>
    rw [List.map_cons, List.nodup_cons] at hnodup
    unfold put
    split
    · rename_i hkey
      rw [List.map_cons, List.nodup_cons, ← hkey]
      exact hnodup
    · rename_i hkey
      rw [List.map_cons, List.nodup_cons]
      refine ⟨fun hmem => ?_, ih hnodup.2⟩
      obtain ⟨x, hx, hxy⟩ := List.mem_map.mp hmem
      rcases (mem_put hnodup.2).mp hx with rfl | ⟨hx, -⟩
      · exact hkey hxy.symm
      · exact hnodup.1 (hxy ▸ List.mem_map_of_mem hx)

theorem collect_concat (records : List α) (r : α) :
    collect key (records ++ [r]) = put key r (collect key records) := by
  unfold collect
  rw [List.foldl_append]
  rfl

/-- The dict has one record under each key. -/
theorem collect_keys (records : List α) : ((collect key records).map key).Nodup := by
  induction records using List.reverseRecOn with
  | nil => exact List.nodup_nil
  | append_singleton records r ih =>
    rw [collect_concat]
    exact put_keys ih

/-- **The last record under a key stays.** -/
theorem mem_collect_concat {records : List α} {r x : α} :
    x ∈ collect key (records ++ [r]) ↔ x = r ∨ x ∈ collect key records ∧ key x ≠ key r := by
  rw [collect_concat, mem_put (collect_keys records)]

theorem mem_of_collect {records : List α} {x : α} (h : x ∈ collect key records) : x ∈ records := by
  induction records using List.reverseRecOn with
  | nil => exact absurd h List.not_mem_nil
  | append_singleton records r ih =>
    rcases mem_collect_concat.mp h with rfl | ⟨h, -⟩
    · exact List.mem_append_right _ List.mem_cons_self
    · exact List.mem_append_left _ (ih h)

/-- Of consistent records everything stays. -/
theorem mem_collect {records : List α} (hconsistent : Consistent key records) {x : α} :
    x ∈ collect key records ↔ x ∈ records := by
  refine ⟨mem_of_collect, fun h => ?_⟩
  induction records using List.reverseRecOn with
  | nil => exact h
  | append_singleton records r ih =>
    rw [mem_collect_concat]
    by_cases hkey : key x = key r
    · exact .inl (hconsistent x h r (List.mem_append_right _ List.mem_cons_self) hkey)
    · refine .inr ⟨ih (fun a ha b hb => ?_) ?_, hkey⟩
      · exact hconsistent a (List.mem_append_left _ ha) b (List.mem_append_left _ hb)
      · rcases List.mem_append.mp h with h | h
        · exact h
        · exact absurd (congrArg key (List.mem_singleton.mp h)) hkey

theorem collect_nodup (records : List α) : (collect key records).Nodup :=
  List.Nodup.of_map key (collect_keys records)

end Collect

/-! ## Merging -/

section Merging

variable (key : α → κ) (rank : α → ω)

/-- Sorted by the rank. -/
def sortBy (records : List α) : List α := records.insertionSort fun a b => rank a ≤ rank b

/-- The records of both sides, the last one under a key, sorted. -/
def mergeBy (left right : List α) : List α := sortBy rank (collect key (left ++ right))

variable {key rank}

theorem mem_sortBy {records : List α} {x : α} : x ∈ sortBy rank records ↔ x ∈ records :=
  (List.perm_insertionSort _ records).mem_iff

theorem sortBy_nodup {records : List α} (h : records.Nodup) : (sortBy rank records).Nodup :=
  (List.perm_insertionSort _ records).nodup_iff.mpr h

theorem sortBy_sorted (records : List α) : (sortBy rank records).Pairwise fun a b => rank a ≤ rank b := by
  have : IsTrans α fun a b => rank a ≤ rank b := ⟨fun _ _ _ hab hbc => le_trans hab hbc⟩
  have : Std.Total fun a b : α => rank a ≤ rank b := ⟨fun a b => le_total (rank a) (rank b)⟩
  exact List.pairwise_insertionSort _ records

/-- A sorted list of distinct members is determined by its members. -/
theorem sorted_unique {xs ys : List α} (hrank : ∀ a ∈ xs, ∀ b ∈ xs, rank a = rank b → a = b)
    (hxs : xs.Pairwise fun a b => rank a ≤ rank b) (hys : ys.Pairwise fun a b => rank a ≤ rank b)
    (hnodup : xs.Nodup) (hnodup' : ys.Nodup) (hmem : ∀ x, x ∈ xs ↔ x ∈ ys) : xs = ys := by
  have hperm : xs.Perm ys := (List.perm_ext_iff_of_nodup hnodup hnodup').mpr hmem
  exact hperm.eq_of_pairwise (fun a b ha hb hab hba =>
    hrank a ha b ((hmem b).mpr hb) (le_antisymm hab hba)) hxs hys

theorem mergeBy_nodup (left right : List α) : (mergeBy key rank left right).Nodup :=
  sortBy_nodup (collect_nodup _)

theorem mem_mergeBy {left right : List α} (hconsistent : Consistent key (left ++ right)) {x : α} :
    x ∈ mergeBy key rank left right ↔ x ∈ left ∨ x ∈ right := by
  unfold mergeBy
  rw [mem_sortBy, mem_collect hconsistent, List.mem_append]

end Merging

/-! ## Orders and groupings -/

/-- The outputs of branches, merged in some order and grouping. -/
inductive Grouping (α : Type) where
  | leaf (records : List α)
  | node (left right : Grouping α)

def Grouping.records : Grouping α → List α
  | .leaf records => records
  | .node left right => left.records ++ right.records

/-- The state that a grouping comes to; the state before the first output is empty. -/
def Grouping.state (merge : List α → List α → List α) : Grouping α → List α
  | .leaf records => merge [] records
  | .node left right => merge (left.state merge) (right.state merge)

/-- Whatever the order and the grouping, the same records come to the same state. -/
def OrderFree (merge : List α → List α → List α) (records : List α) : Prop :=
  ∀ g g' : Grouping α, (∀ r, r ∈ g.records ↔ r ∈ records) → (∀ r, r ∈ g'.records ↔ r ∈ records) →
    g.state merge = g'.state merge

section Law

variable {key : α → κ} {rank : α → ω}

/-- The state of a consistent grouping has its records as members, each once. -/
theorem mem_state {g : Grouping α} (hconsistent : Consistent key g.records) {x : α} :
    x ∈ g.state (mergeBy key rank) ↔ x ∈ g.records := by
  induction g generalizing x with
  | leaf records =>
    show x ∈ mergeBy key rank [] records ↔ x ∈ records
    rw [mem_mergeBy (hconsistent.of_subset fun x hx => hx)]
    simp
  | node left right ihl ihr =>
    have hl : Consistent key left.records := hconsistent.of_subset fun x hx => List.mem_append_left _ hx
    have hr : Consistent key right.records := hconsistent.of_subset fun x hx => List.mem_append_right _ hx
    have hboth : Consistent key (left.state (mergeBy key rank) ++ right.state (mergeBy key rank)) := by
      refine hconsistent.of_subset fun x hx => List.mem_append.mpr ?_
      rcases List.mem_append.mp hx with hx | hx
      · exact .inl ((ihl hl).mp hx)
      · exact .inr ((ihr hr).mp hx)
    show x ∈ mergeBy key rank _ _ ↔ x ∈ left.records ++ right.records
    rw [mem_mergeBy hboth, ihl hl, ihr hr, List.mem_append]

theorem state_sorted (g : Grouping α) :
    (g.state (mergeBy key rank)).Pairwise (fun a b => rank a ≤ rank b) ∧
      (g.state (mergeBy key rank)).Nodup := by
  cases g with
  | leaf records => exact ⟨sortBy_sorted _, mergeBy_nodup _ _⟩
  | node left right => exact ⟨sortBy_sorted _, mergeBy_nodup _ _⟩

/-- The order of two records that share a key shows. -/
theorem collect_order {records : List α} {a b : α} (hkey : key a = key b) (hne : a ≠ b) :
    b ∈ collect key (records ++ [a] ++ [b]) ∧ b ∉ collect key (records ++ [b] ++ [a]) := by
  refine ⟨mem_collect_concat.mpr (.inl rfl), fun hmem => ?_⟩
  rcases mem_collect_concat.mp hmem with heq | ⟨-, hno⟩
  · exact hne heq.symm
  · exact hno hkey.symm

/-- **Merging is free of the order exactly on consistent records**, when the rank tells the keys
    apart. -/
theorem orderFree_iff (hrank : ∀ a b, rank a = rank b → key a = key b) (records : List α) :
    OrderFree (mergeBy key rank) records ↔ Consistent key records := by
  constructor
  · intro hfree a ha b hb hkey
    by_contra hne
    have hrecords : ∀ c d : α, c ∈ records → d ∈ records →
        ∀ r, r ∈ (Grouping.leaf (records ++ [c] ++ [d])).records ↔ r ∈ records := by
      intro c d hc hd r
      show r ∈ records ++ [c] ++ [d] ↔ r ∈ records
      simp only [List.mem_append, List.mem_singleton]
      constructor
      · rintro ((hr | rfl) | rfl)
        · exact hr
        · exact hc
        · exact hd
      · exact fun hr => .inl (.inl hr)
    have hsame := hfree _ _ (hrecords a b ha hb) (hrecords b a hb ha)
    obtain ⟨hin, hout⟩ : b ∈ collect key (records ++ [a] ++ [b]) ∧ b ∉ collect key (records ++ [b] ++ [a]) :=
      collect_order hkey hne
    have hin' : b ∈ (Grouping.leaf (records ++ [a] ++ [b])).state (mergeBy key rank) := mem_sortBy.mpr hin
    rw [hsame] at hin'
    exact hout (mem_sortBy.mp hin')
  · intro hconsistent g g' hg hg'
    have hc := hconsistent.of_subset fun r hr => (hg r).mp hr
    have hc' := hconsistent.of_subset fun r hr => (hg' r).mp hr
    have hone : ∀ a ∈ g.state (mergeBy key rank), ∀ b ∈ g.state (mergeBy key rank), rank a = rank b → a = b :=
      fun a ha b hb heq => hc a ((mem_state hc).mp ha) b ((mem_state hc).mp hb) (hrank a b heq)
    refine sorted_unique hone (state_sorted g).1 (state_sorted g').1 (state_sorted g).2 (state_sorted g').2
      fun x => ?_
    rw [mem_state hc, mem_state hc', hg, hg']

end Law

end Merge

end Aegis
