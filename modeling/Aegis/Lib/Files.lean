/-
  FILES, by their paths.

  A tree says what is at each path: nothing, a directory, or a file with its content.  The root is a
  directory, whatever the tree says of it.  An operation changes the tree or fails, as a call of the
  operating system does; it changes what is at one path, except `remove` and `rename`, which are about all
  that lies at or beneath one.

  What a sequence of `makeDir` does is said once, by `Adds`: at some paths where nothing was there is a
  directory now.
-/
import Mathlib

namespace Aegis

namespace Files

/-- What is at a path. -/
inductive Node (β : Type) where
  | dir
  | file (content : List β)

/-- Paths are lists of names; `ν` are the names, `β` is what files are made of. -/
abbrev Tree (ν β : Type) : Type := List ν → Option (Node β)

variable {ν β : Type}

/-- What is at a path; the root is a directory. -/
def look (t : Tree ν β) : List ν → Option (Node β)
  | [] => some .dir
  | name :: rest => t (name :: rest)

theorem look_of_ne_nil {t : Tree ν β} {p : List ν} (h : p ≠ []) : look t p = t p := by
  cases p with
  | nil => exact absurd rfl h
  | cons name rest => rfl

variable [DecidableEq ν]

/-! ## Operations -/

/-- `mkdir` where a directory may be. -/
def makeDir (p : List ν) (t : Tree ν β) : Option (Tree ν β) :=
  match look t p with
  | none => some (Function.update t p (some .dir))
  | some .dir => some t
  | some (.file _) => none

/-- A new file, where nothing is. -/
def create (p : List ν) (t : Tree ν β) : Option (Tree ν β) :=
  match look t p with
  | none => some (Function.update t p (some (.file [])))
  | some _ => none

/-- More content for a file. -/
def extend (p : List ν) (more : List β) (t : Tree ν β) : Option (Tree ν β) :=
  match look t p with
  | some (.file content) => some (Function.update t p (some (.file (content ++ more))))
  | _ => none

/-- All that is at the path or beneath it goes. -/
def remove (p : List ν) (t : Tree ν β) : Tree ν β := fun q => if p <+: q then none else t q

/-- All that is at the first path or beneath it is now at the second or beneath that. -/
def rename (p q : List ν) (t : Tree ν β) : Tree ν β := fun r =>
  if q <+: r then t (p ++ r.drop q.length) else if p <+: r then none else t r

/-! ## What they change -/

/-- At some of these paths, where nothing was, there is a directory now. -/
def Adds (P : List ν → Prop) (t t' : Tree ν β) : Prop :=
  ∀ q, t' q = t q ∨ P q ∧ t q = none ∧ t' q = some .dir

/-- What was there is still there. -/
def Grew (t t' : Tree ν β) : Prop := ∀ q, t q ≠ none → t' q = t q

omit [DecidableEq ν] in
theorem Adds.refl (P : List ν → Prop) (t : Tree ν β) : Adds P t t := fun _ => .inl rfl

omit [DecidableEq ν] in
theorem Adds.trans {P : List ν → Prop} {t t' t'' : Tree ν β} (h : Adds P t t') (h' : Adds P t' t'') :
    Adds P t t'' := by
  intro q
  rcases h q with hq | ⟨hP, hnone, hdir⟩
  · rw [← hq]
    exact h' q
  · rcases h' q with hq | ⟨-, hnone', -⟩
    · exact .inr ⟨hP, hnone, hq.trans hdir⟩
    · rw [hdir] at hnone'
      cases hnone'

omit [DecidableEq ν] in
theorem Adds.mono {P Q : List ν → Prop} {t t' : Tree ν β} (h : Adds P t t') (hPQ : ∀ q, P q → Q q) :
    Adds Q t t' := fun q => (h q).imp_right fun ⟨hP, hrest⟩ => ⟨hPQ q hP, hrest⟩

omit [DecidableEq ν] in
theorem Adds.grew {P : List ν → Prop} {t t' : Tree ν β} (h : Adds P t t') : Grew t t' := by
  intro q hq
  rcases h q with heq | ⟨-, hnone, -⟩
  · exact heq
  · exact absurd hnone hq

omit [DecidableEq ν] in
theorem Grew.look {t t' : Tree ν β} (h : Grew t t') {p : List ν} {n : Node β} (hp : look t p = some n) :
    Files.look t' p = some n := by
  cases p with
  | nil => exact hp
  | cons name rest =>
    have hne : t (name :: rest) ≠ none := fun hnone => by
      rw [Files.look, hnone] at hp
      cases hp
    exact (h _ hne).trans hp

theorem makeDir_adds {p : List ν} {t t' : Tree ν β} (h : makeDir p t = some t') :
    Adds (fun q => q = p ∧ q ≠ []) t t' ∧ look t' p = some .dir := by
  unfold makeDir at h
  split at h
  · rename_i hlook
    have hne : p ≠ [] := by
      rintro rfl
      cases hlook
    rw [look_of_ne_nil hne] at hlook
    obtain rfl := Option.some.inj h
    refine ⟨fun q => ?_, ?_⟩
    · by_cases hq : q = p
      · subst hq
        exact .inr ⟨⟨rfl, hne⟩, hlook, Function.update_self ..⟩
      · exact .inl (Function.update_of_ne hq ..)
    · rw [look_of_ne_nil hne, Function.update_self]
  · rename_i hlook
    obtain rfl := Option.some.inj h
    exact ⟨Adds.refl _ t, hlook⟩
  · cases h

theorem create_some {p : List ν} {t t' : Tree ν β} (h : create p t = some t') :
    p ≠ [] ∧ t p = none ∧ t' = Function.update t p (some (.file [])) := by
  unfold create at h
  split at h
  · rename_i hlook
    have hne : p ≠ [] := by
      rintro rfl
      cases hlook
    rw [look_of_ne_nil hne] at hlook
    exact ⟨hne, hlook, (Option.some.inj h).symm⟩
  · cases h

theorem extend_some {p : List ν} {t t' : Tree ν β} {content more : List β} (hne : p ≠ [])
    (hp : t p = some (.file content)) (h : extend p more t = some t') :
    t' = Function.update t p (some (.file (content ++ more))) := by
  unfold extend at h
  rw [look_of_ne_nil hne, hp] at h
  exact (Option.some.inj h).symm

theorem remove_within {p q : List ν} (t : Tree ν β) (h : p <+: q) : remove p t q = none := if_pos h

theorem remove_outside {p q : List ν} (t : Tree ν β) (h : ¬p <+: q) : remove p t q = t q := if_neg h

theorem rename_within (p q r : List ν) (t : Tree ν β) : rename p q t (q ++ r) = t (p ++ r) := by
  rw [rename, if_pos (List.prefix_append q r), List.drop_left]

theorem rename_from {p q r : List ν} (t : Tree ν β) (h : ¬q <+: r) (hp : p <+: r) :
    rename p q t r = none := by
  rw [rename, if_neg h, if_pos hp]

theorem rename_outside {p q r : List ν} (t : Tree ν β) (h : ¬q <+: r) (hp : ¬p <+: r) :
    rename p q t r = t r := by
  rw [rename, if_neg h, if_neg hp]

end Files

end Aegis
