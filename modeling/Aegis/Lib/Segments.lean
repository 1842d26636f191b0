/-
  CUTTING A LIST INTO OVERLAPPING SEGMENTS.

  A window of `size` items moves over the list by `step` items, and stops at the first window that
  reaches the end.  Neighbours share `size - step` items (`cut_next`), every segment but the last is
  full (`cut_full`), and the first segment with what each later one adds is the whole list
  (`cut_join`): nothing is lost at the end, and no segment only repeats what its neighbour has.
-/
import Mathlib

namespace Aegis

namespace Segments

variable {α : Type}

/-- The segments of a list. -/
def cut (size step : Nat) (hstep : 0 < step) (xs : List α) : List (List α) :=
  if xs.length ≤ size then [xs]
  else xs.take size :: cut size step hstep (xs.drop step)
termination_by xs.length
decreasing_by
  rw [List.length_drop]
  omega

variable {size step : Nat} {hstep : 0 < step}

theorem cut_of_le {xs : List α} (h : xs.length ≤ size) : cut size step hstep xs = [xs] := by
  rw [cut, if_pos h]

theorem cut_of_lt {xs : List α} (h : size < xs.length) :
    cut size step hstep xs = xs.take size :: cut size step hstep (xs.drop step) := by
  rw [cut, if_neg (by omega)]

theorem cut_ne_nil (xs : List α) : cut size step hstep xs ≠ [] := by
  rcases Nat.lt_or_ge size xs.length with h | h
  · rw [cut_of_lt h]
    exact List.cons_ne_nil _ _
  · rw [cut_of_le h]
    exact List.cons_ne_nil _ _

/-- The first segment begins the list. -/
theorem cut_head (xs : List α) : (cut size step hstep xs).headD [] = xs.take size := by
  rcases Nat.lt_or_ge size xs.length with h | h
  · rw [cut_of_lt h, List.headD_cons]
  · rw [cut_of_le h, List.headD_cons, List.take_of_length_le h]

/-- **Where the segments are**: each begins `step` items after the one before it. -/
theorem cut_eq (xs : List α) : cut size step hstep xs =
    (List.range (cut size step hstep xs).length).map fun k => (xs.drop (k * step)).take size := by
  fun_induction cut size step hstep xs with
  | case1 xs h => simp [List.take_of_length_le h]
  | case2 xs h ih =>
    rw [List.length_cons, List.range_succ_eq_map, List.map_cons, List.map_map]
    refine congrArg₂ List.cons (by simp) ?_
    rw [ih, List.length_map, List.length_range]
    refine List.map_congr_left fun k _ => ?_
    show _ = (xs.drop ((k + 1) * step)).take size
    rw [List.drop_drop]
    congr 2
    rw [Nat.add_mul, Nat.one_mul, Nat.add_comm]

theorem cut_getElem (xs : List α) (k : Nat) (hk : k < (cut size step hstep xs).length) :
    (cut size step hstep xs)[k] = (xs.drop (k * step)).take size := by
  refine (List.getElem_of_eq (cut_eq xs) hk).trans ?_
  rw [List.getElem_map, List.getElem_range]

/-- Every segment but the last leaves items past its end. -/
theorem cut_past (xs : List α) (k : Nat) (hk : k + 1 < (cut size step hstep xs).length) :
    k * step + size < xs.length := by
  fun_induction cut size step hstep xs generalizing k with
  | case1 xs h =>
    rw [List.length_singleton] at hk
    omega
  | case2 xs h ih =>
    rw [List.length_cons] at hk
    cases k with
    | zero => omega
    | succ k =>
      have hpast := ih k (by omega)
      rw [List.length_drop] at hpast
      rw [Nat.add_mul]
      omega

/-- **Every segment but the last is full.** -/
theorem cut_full (xs : List α) (k : Nat) (hk : k + 1 < (cut size step hstep xs).length) :
    ((cut size step hstep xs)[k]).length = size := by
  have hpast := cut_past xs k hk
  rw [cut_getElem, List.length_take, List.length_drop]
  omega

theorem cut_length_le (xs : List α) : ∀ w ∈ cut size step hstep xs, w.length ≤ size := by
  intro w hw
  obtain ⟨k, hk, rfl⟩ := List.mem_iff_getElem.mp hw
  rw [cut_getElem]
  exact List.length_take_le _ _

theorem cut_isInfix (xs : List α) : ∀ w ∈ cut size step hstep xs, w <:+: xs := by
  intro w hw
  obtain ⟨k, hk, rfl⟩ := List.mem_iff_getElem.mp hw
  rw [cut_getElem]
  exact (List.take_prefix _ _).isInfix.trans (List.drop_suffix _ _).isInfix

/-- **Neighbours overlap in `size - step` items**, and the later one has more. -/
theorem cut_next (hle : step ≤ size) (xs : List α) (k : Nat)
    (hk : k + 1 < (cut size step hstep xs).length) :
    ((cut size step hstep xs)[k + 1]).take (size - step) =
        ((cut size step hstep xs)[k]).drop step ∧
      size - step < ((cut size step hstep xs)[k + 1]).length := by
  have hpast := cut_past xs k hk
  have hstart : (k + 1) * step = k * step + step := by rw [Nat.add_mul, Nat.one_mul]
  rw [cut_getElem, cut_getElem, hstart]
  constructor
  · rw [List.take_take, List.drop_take, List.drop_drop, Nat.min_eq_left (Nat.sub_le _ _)]
  · rw [List.length_take, List.length_drop]
    omega

/-- No segment of a list with items is empty. -/
theorem cut_nonempty (hle : step ≤ size) {xs : List α} (hne : xs ≠ []) :
    ∀ w ∈ cut size step hstep xs, w ≠ [] := by
  intro w hw
  obtain ⟨k, hk, rfl⟩ := List.mem_iff_getElem.mp hw
  refine List.ne_nil_of_length_pos ?_
  cases k with
  | zero =>
    have hlen := List.length_pos_iff.mpr hne
    rw [cut_getElem, Nat.zero_mul, List.drop_zero, List.length_take]
    omega
  | succ k => exact lt_of_le_of_lt (Nat.zero_le _) (cut_next hle xs k hk).2

/-- **The first segment and what each later one adds are the list.** -/
theorem cut_join (hle : step ≤ size) (xs : List α) :
    (cut size step hstep xs).headD [] ++
      ((cut size step hstep xs).tail.map fun w => w.drop (size - step)).flatten = xs := by
  fun_induction cut size step hstep xs with
  | case1 xs h => simp
  | case2 xs h ih =>
    -- what the second segment adds to the first is what it has past the overlap
    have hhead : (cut size step hstep (xs.drop step)).headD [] = (xs.drop step).take size := cut_head _
    obtain ⟨w, ws, hws⟩ : ∃ w ws, cut size step hstep (xs.drop step) = w :: ws :=
      List.exists_cons_of_ne_nil (cut_ne_nil _)
    rw [hws, List.headD_cons] at hhead
    rw [hws, List.headD_cons, List.tail_cons] at ih
    rw [hws, List.headD_cons, List.tail_cons, List.map_cons, List.flatten_cons, ← List.append_assoc]
    have hfirst : xs.take size ++ w.drop (size - step) = xs.take step ++ w := by
      have hw : w.take (size - step) = (xs.take size).drop step := by
        rw [hhead, List.take_take, List.drop_take, Nat.min_eq_left (Nat.sub_le _ _)]
      calc xs.take size ++ w.drop (size - step)
          = (xs.take size).take step ++ (xs.take size).drop step ++ w.drop (size - step) := by
            rw [List.take_append_drop]
        _ = xs.take step ++ (w.take (size - step) ++ w.drop (size - step)) := by
            rw [hw, List.take_take, Nat.min_eq_left hle, List.append_assoc]
        _ = xs.take step ++ w := by rw [List.take_append_drop]
    rw [hfirst, List.append_assoc, ih, List.take_append_drop]

end Segments

end Aegis
