/-
  GREEDY SELECTION FROM A LIST.

  `draw` moves items one by one from a pool to a selection, each time one that `best` names.
  `pick` goes over a list once and keeps an item when it fits what has been kept.  Either way the
  items are only moved: a draw and what it leaves are the pool in some order (`draw_perm`), and what is
  admitted is a sublist (`pick_sublist`).  A bound that each kept item respects holds at the end
  (`pick_induct`).
-/
import Mathlib

namespace Aegis

namespace Selection

variable {α : Type}

/-! ## Admission -/

/-- One pass that keeps what fits. -/
def pick (fits : List α → α → Bool) : List α → List α → List α
  | kept, [] => kept
  | kept, a :: rest => pick fits (if fits kept a = true then kept ++ [a] else kept) rest

theorem pick_append (fits : List α → α → Bool) (kept rest : List α) :
    ∃ added, pick fits kept rest = kept ++ added ∧ added.Sublist rest := by
  induction rest generalizing kept with
  | nil => exact ⟨[], (List.append_nil kept).symm, List.Sublist.slnil⟩
  | cons a rest ih =>
    rw [pick]
    split
    · obtain ⟨added, hadded, hsub⟩ := ih (kept ++ [a])
      refine ⟨a :: added, ?_, hsub.cons_cons a⟩
      rw [hadded, List.append_assoc, List.singleton_append]
    · obtain ⟨added, hadded, hsub⟩ := ih kept
      exact ⟨added, hadded, hsub.cons a⟩

/-- **What is admitted is in the list, in its order.** -/
theorem pick_sublist (fits : List α → α → Bool) (rest : List α) : (pick fits [] rest).Sublist rest := by
  obtain ⟨added, hadded, hsub⟩ := pick_append fits [] rest
  rw [hadded]
  exact hsub

/-- **What holds of nothing and is kept by each admission holds of what is admitted.** -/
theorem pick_induct {fits : List α → α → Bool} (P : List α → Prop)
    (hstep : ∀ kept a, P kept → fits kept a = true → P (kept ++ [a])) {kept : List α} (rest : List α)
    (hkept : P kept) : P (pick fits kept rest) := by
  induction rest generalizing kept with
  | nil => exact hkept
  | cons a rest ih =>
    rw [pick]
    split
    · rename_i hfits
      exact ih (hstep kept a hkept hfits)
    · exact ih hkept

/-- A sum over what is admitted stays within a bound that each admission checks. -/
theorem pick_sum_le {fits : List α → α → Bool} {weight : α → Nat} {bound : Nat}
    (hfits : ∀ kept a, fits kept a = true → (kept.map weight).sum + weight a ≤ bound) (rest : List α) :
    ((pick fits [] rest).map weight).sum ≤ bound := by
  refine pick_induct (fun kept => (kept.map weight).sum ≤ bound) (fun kept a _ h => ?_) rest
    (Nat.zero_le _)
  rw [List.map_append, List.sum_append, List.map_singleton, List.sum_singleton]
  exact hfits kept a h

theorem pick_split (fits : List α → α → Bool) (kept before after : List α) :
    pick fits kept (before ++ after) = pick fits (pick fits kept before) after := by
  induction before generalizing kept with
  | nil => rfl
  | cons b before ih =>
    rw [List.cons_append, pick, pick]
    exact ih _

/-- An item is kept when it fits what the list before it has kept. -/
theorem mem_pick {fits : List α → α → Bool} {before after : List α} {a : α}
    (h : fits (pick fits [] before) a = true) : a ∈ pick fits [] (before ++ a :: after) := by
  rw [pick_split, pick, if_pos h]
  obtain ⟨added, hadded, -⟩ := pick_append fits (pick fits [] before ++ [a]) after
  rw [hadded]
  simp

/-! ## Draws -/

variable [DecidableEq α]

/-- Draw from a pool, while there is room and an item is named. -/
def draw (best : List α → List α → Option α) : Nat → List α → List α → List α
  | 0, drawn, _ => drawn
  | room + 1, drawn, pool =>
    match best drawn pool with
    | none => drawn
    | some a => draw best room (drawn ++ [a]) (pool.erase a)

variable {best : List α → List α → Option α}

/-- **A draw takes each item from the pool once.** -/
theorem draw_perm (hbest : ∀ drawn pool a, best drawn pool = some a → a ∈ pool) (room : Nat)
    (drawn pool : List α) : ∃ left, (draw best room drawn pool ++ left).Perm (drawn ++ pool) := by
  induction room generalizing drawn pool with
  | zero => exact ⟨pool, List.Perm.refl _⟩
  | succ room ih =>
    rw [draw]
    cases hnamed : best drawn pool with
    | none => exact ⟨pool, List.Perm.refl _⟩
    | some a =>
      obtain ⟨left, hleft⟩ := ih (drawn ++ [a]) (pool.erase a)
      refine ⟨left, hleft.trans ?_⟩
      rw [List.append_assoc, List.singleton_append]
      exact (List.perm_cons_erase (hbest drawn pool a hnamed)).symm.append_left drawn

theorem draw_subperm (hbest : ∀ drawn pool a, best drawn pool = some a → a ∈ pool) (room : Nat)
    (pool : List α) : (draw best room [] pool).Subperm pool := by
  obtain ⟨left, hleft⟩ := draw_perm hbest room [] pool
  exact (List.sublist_append_left _ left).subperm.trans hleft.subperm

/-- From a pool of one item, the item is drawn first. -/
theorem draw_singleton {a : α} (h : best [] [a] = some a) (room : Nat) :
    draw best (room + 1) [] [a] = draw best room [a] [] := by
  rw [draw, h]
  dsimp only
  rw [List.erase_cons_head, List.nil_append]

end Selection

end Aegis
