/-
  MARKING WHAT DISAGREES, in one pass that remembers the last value only.

  Each item has a value.  When a new item's value is not the last one, it and all items before it are
  marked; otherwise it is not marked.  `Marked` is what such a pass keeps: a marked part that ends in two
  different values, and after it items that all have the last value.

  Disagreeing items are all marked exactly when the values are SETTLED: they are all equal, or the last
  two differ (`Marked.all_iff`).  A repeated last value leaves its later copies unmarked.
-/
import Mathlib

namespace Aegis

namespace Marks

variable {α δ γ : Type}

/-- All values are equal, or the last two differ. -/
def Settled (values : List δ) : Prop :=
  (∀ a ∈ values, ∀ b ∈ values, a = b) ∨ ∃ front a b, values = front ++ [a, b] ∧ a ≠ b

/-- What one pass keeps, for the items so far and the last value. -/
structure Marked (value : α → δ) (mark : α → Option γ) (g : γ) (last : Option δ) (xs : List α) :
    Prop where
  recent : (last = none ∧ xs = []) ∨ ∃ front a, xs = front ++ [a] ∧ last = some (value a)
  parts : ∃ marked free, xs = marked ++ free ∧ (∀ a ∈ marked, mark a = some g) ∧
    (∀ a ∈ free, mark a = none ∧ last = some (value a)) ∧
    (marked = [] ∨ ∃ front a b, marked = front ++ [a, b] ∧ value a ≠ value b ∧ last = some (value b))

variable {value : α → δ} {mark : α → Option γ} {g : γ} {last : Option δ} {xs : List α}

theorem marked_nil : Marked value mark g none [] :=
  ⟨.inl ⟨rfl, rfl⟩, [], [], rfl, fun _ h => (by cases h), fun _ h => (by cases h), .inl rfl⟩

/-- An item that agrees with the last one, or is the first, is not marked. -/
theorem Marked.agree (h : Marked value mark g last xs) {a : α} (hmark : mark a = none)
    (hlast : last = none ∨ last = some (value a)) :
    Marked value mark g (some (value a)) (xs ++ [a]) := by
  obtain ⟨marked, free, rfl, hmarked, hfree, hends⟩ := h.parts
  refine ⟨.inr ⟨_, a, rfl, rfl⟩, marked, free ++ [a], List.append_assoc _ _ _, hmarked, ?_, ?_⟩
  · intro b hb
    rcases List.mem_append.mp hb with hb | hb
    · obtain ⟨hnone, hb⟩ := hfree b hb
      rcases hlast with hlast | hlast
      · rw [hlast] at hb
        cases hb
      · exact ⟨hnone, hlast.symm.trans hb⟩
    · rw [List.mem_singleton.mp hb]
      exact ⟨hmark, rfl⟩
  · rcases hends with hnil | ⟨front, c, b, hmarked, hne, hb⟩
    · exact .inl hnil
    · rcases hlast with hlast | hlast
      · rw [hlast] at hb
        cases hb
      · exact .inr ⟨front, c, b, hmarked, hne, hlast.symm.trans hb⟩

/-- An item that disagrees with the last one is marked, with all before it. -/
theorem Marked.disagree (h : Marked value mark g last xs) {a : α} {f : α → α}
    (hvalue : ∀ b, value (f b) = value b) (hf : ∀ b ∈ xs, mark (f b) = some g)
    (hmark : mark a = some g) {d : δ} (hlast : last = some d) (hne : d ≠ value a) :
    Marked value mark g (some (value a)) (xs.map f ++ [a]) := by
  refine ⟨.inr ⟨_, a, rfl, rfl⟩, xs.map f ++ [a], [], (List.append_nil _).symm, ?_,
    fun _ h => (by cases h), .inr ?_⟩
  · intro b hb
    rcases List.mem_append.mp hb with hb | hb
    · obtain ⟨c, hc, rfl⟩ := List.mem_map.mp hb
      exact hf c hc
    · rw [List.mem_singleton.mp hb]
      exact hmark
  · rcases h.recent with ⟨hnone, -⟩ | ⟨front, b, rfl, hb⟩
    · rw [hlast] at hnone
      cases hnone
    · refine ⟨front.map f, f b, a, ?_, ?_, rfl⟩
      · rw [List.map_append, List.map_singleton, List.append_assoc, List.singleton_append]
      · rw [hvalue]
        rw [hlast] at hb
        rw [← Option.some.inj hb]
        exact hne

/-- **What is marked has another item that disagrees with it.** -/
theorem Marked.sound (h : Marked value mark g last xs) {a : α} (ha : a ∈ xs)
    (hmark : (mark a).isSome = true) : ∃ b ∈ xs, value b ≠ value a := by
  obtain ⟨marked, free, rfl, -, hfree, hends⟩ := h.parts
  have hin : a ∈ marked := by
    rcases List.mem_append.mp ha with ha | ha
    · exact ha
    · rw [(hfree a ha).1] at hmark
      cases hmark
  rcases hends with rfl | ⟨front, b, c, rfl, hne, -⟩
  · cases hin
  · -- `b` and `c` differ, so one of them differs from `a`
    by_cases hb : value b = value a
    · exact ⟨c, by simp, fun hc => hne (hb.trans hc.symm)⟩
    · exact ⟨b, by simp, hb⟩

/-- **Disagreeing items are all marked exactly when the values are settled.** -/
theorem Marked.all_iff (h : Marked value mark g last xs) :
    (∀ a ∈ xs, ∀ b ∈ xs, value a ≠ value b → mark a = some g ∧ mark b = some g) ↔
      Settled (xs.map value) := by
  obtain ⟨marked, free, rfl, hmarked, hfree, hends⟩ := h.parts
  rcases hends with rfl | ⟨front, a, b, rfl, hne, hlast⟩
  · -- nothing is marked: all values are the last one
    have hall : ∀ x ∈ free, ∀ y ∈ free, value x = value y := by
      intro x hx y hy
      exact Option.some.inj ((hfree x hx).2.symm.trans (hfree y hy).2)
    rw [List.nil_append]
    constructor
    · intro _
      refine .inl fun x hx y hy => ?_
      obtain ⟨a, ha, rfl⟩ := List.mem_map.mp hx
      obtain ⟨b, hb, rfl⟩ := List.mem_map.mp hy
      exact hall a ha b hb
    · intro _ x hx y hy hxy
      exact absurd (hall x hx y hy) hxy
  · rcases List.eq_nil_or_concat free with rfl | ⟨rest, c, rfl⟩
    · -- everything is marked
      rw [List.append_nil]
      constructor
      · intro _
        refine .inr ⟨front.map value, value a, value b, ?_, hne⟩
        rw [List.map_append]
        rfl
      · intro _ x hx y hy _
        exact ⟨hmarked x hx, hmarked y hy⟩
    · -- the last item repeats the value of the one before it, and is not marked
      have hc := hfree c (by simp)
      have hbc : value b = value c := Option.some.inj (hlast.symm.trans hc.2)
      constructor
      · intro hall
        have hmark := (hall a (by simp) c (by simp) (hbc ▸ hne)).2
        rw [hc.1] at hmark
        cases hmark
      · rintro (hall | ⟨init, x, y, hsplit, hxy⟩)
        · exact absurd (hall _ (List.mem_map_of_mem (by simp)) _ (List.mem_map_of_mem (by simp))) hne
        · -- the two last values are the last value
          exfalso
          have hprev : ∃ init' z, front ++ [a, b] ++ rest = init' ++ [z] ∧ value z = value c := by
            rcases List.eq_nil_or_concat rest with rfl | ⟨more, z, rfl⟩
            · exact ⟨front ++ [a], b, by simp, hbc⟩
            · refine ⟨front ++ [a, b] ++ more, z, by simp, ?_⟩
              exact Option.some.inj ((hfree z (by simp)).2.symm.trans hc.2)
          obtain ⟨init', z, hz, hzc⟩ := hprev
          have hlist : init'.map value ++ [value z, value c] = init ++ [x, y] := by
            rw [← hsplit, List.concat_eq_append, ← List.append_assoc, hz]
            simp
          have htail := (List.append_inj' hlist rfl).2
          simp only [List.cons.injEq, and_true] at htail
          exact hxy (htail.1.symm.trans (hzc.trans htail.2))

end Marks

end Aegis
