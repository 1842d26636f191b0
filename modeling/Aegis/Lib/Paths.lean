/-
  PATHS, as texts between separators.

  A path lies WITHIN a root when the two are one text, or when the text of the root and a separator begin
  it.  Its `segments` are what stands between its separators.  They turn both questions one asks about
  two paths into questions about lists: paths are equal when their segments are (`segments_inj`), and a
  path lies within a root when the root's segments begin its own (`within_iff`).  To join two paths is
  to append their segments (`segments_join`), so a common prefix can be taken off (`within_join`).
-/
import Mathlib

namespace Aegis

namespace Paths

variable {α : Type} {sep : α}

theorem intercalate_append {ss ts : List (List α)} (hss : ss ≠ []) (hts : ts ≠ []) :
    [sep].intercalate (ss ++ ts) = [sep].intercalate ss ++ sep :: [sep].intercalate ts := by
  induction ss with
  | nil => exact absurd rfl hss
  | cons s ss ih =>
    rw [List.cons_append]
    by_cases hnil : ss = []
    · rw [hnil, List.nil_append, List.intercalate_cons_of_ne_nil hts, List.intercalate_singleton,
        List.append_assoc, List.singleton_append]
    · rw [List.intercalate_cons_of_ne_nil (by simp [hnil]), ih hnil,
        List.intercalate_cons_of_ne_nil hnil]
      simp only [List.append_assoc]

variable [DecidableEq α]

/-- What stands between the separators of a path. -/
def segments (sep : α) (path : List α) : List (List α) := path.splitOn sep

/-- The path is the root, or beneath it. -/
def Within (sep : α) (root path : List α) : Prop := path = root ∨ root ++ [sep] <+: path

instance (root path : List α) : Decidable (Within sep root path) :=
  inferInstanceAs (Decidable (_ ∨ _))

@[simp] theorem segments_ne_nil (path : List α) : segments sep path ≠ [] :=
  List.splitOn_ne_nil sep path

theorem join_segments (sep : α) (path : List α) : [sep].intercalate (segments sep path) = path :=
  List.intercalate_splitOn sep

@[simp] theorem segments_inj {p q : List α} : segments sep p = segments sep q ↔ p = q := by
  refine ⟨fun h => ?_, fun h => by rw [h]⟩
  rw [← join_segments sep p, h, join_segments]

@[simp] theorem segments_join (p q : List α) :
    segments sep (p ++ sep :: q) = segments sep p ++ segments sep q :=
  List.splitOn_append_cons_self p q

/-- A path lies within a root when the segments of the root begin its own. -/
theorem within_iff {root path : List α} :
    Within sep root path ↔ segments sep root <+: segments sep path := by
  constructor
  · rintro (rfl | ⟨rest, rfl⟩)
    · exact List.prefix_refl _
    · rw [List.append_assoc, List.singleton_append, segments_join]
      exact List.prefix_append _ _
  · rintro ⟨rest, h⟩
    rcases eq_or_ne rest [] with rfl | hrest
    · rw [List.append_nil] at h
      exact .inl (segments_inj.mp h).symm
    · -- what is left of the path comes after one more separator
      refine .inr ⟨[sep].intercalate rest, ?_⟩
      rw [← join_segments sep path, ← h, intercalate_append (segments_ne_nil root) hrest,
        join_segments, List.append_assoc, List.singleton_append]

end Paths

end Aegis
