/-
  FACT BOOKS: facts by aggregate, an index of commands, a projection folded from the facts.

  Three tables are written together and only together: a fact is appended, its command is indexed, the
  projection is replaced by the fold of the fact onto it.  `Kind` says what a fact carries and how it is
  folded; `Next` is what has to hold of a fact that is appended.  A command is ANSWERED (`Answer`) in
  one of three ways: from the projection, by a new fact, or with an error.  What the index keeps of a
  command is an ENTRY made of its content, a digest for instance.

  `Laws` is the one invariant, kept by every answer (`Laws.answered`).  Read off it:
    * `Laws.rebuilt`       -- the stored projection is the fold of the facts;
    * `Laws.answer_same`   -- a repeated command gets the projection and leaves the book alone;
    * `Laws.answer_other`  -- with another entry it gets an error;
    * `Laws.recorded_once` -- one command, one fact.
  `Asked` is the other invariant: the contents of the facts are contents that were asked.
-/
import Mathlib
import Aegis.Lib.Exec
import Aegis.Lib.HashChain

namespace Aegis

namespace FactBook

variable {κ χ ι ρ π δ ζ ε : Type}

/-- Facts `ρ` and projections `π` by aggregate `κ`; entries `ι` by command `χ`. -/
structure Book (κ χ ι ρ π : Type) where
  facts : κ → List ρ
  commands : χ → Option ι
  projections : κ → Option π

/-- A book without facts. -/
def Book.empty : Book κ χ ι ρ π := ⟨fun _ => [], fun _ => none, fun _ => none⟩

/-- What a fact carries, what it is digested to, how it is folded. -/
structure Kind (κ χ ι ρ π δ ζ ε : Type) where
  sequence : ρ → Nat
  previous : ρ → δ
  digest : ρ → δ
  start : δ
  recompute : ρ → δ
  command : κ → ρ → χ
  content : κ → ρ → ζ
  entry : κ → ζ → ι
  reduce : κ → Option π → ρ → Except ε π

/-- The fold of facts. -/
def Kind.replay (K : Kind κ χ ι ρ π δ ζ ε) (key : κ) (facts : List ρ) : Except ε (Option π) :=
  facts.foldlM (fun current fact => (K.reduce key current fact).map some) none

theorem Kind.replay_concat (K : Kind κ χ ι ρ π δ ζ ε) (key : κ) (facts : List ρ) (fact : ρ) :
    K.replay key (facts ++ [fact]) =
      (K.replay key facts).bind fun current => (K.reduce key current fact).map some := by
  unfold Kind.replay
  rw [List.foldlM_append]
  cases facts.foldlM (fun current fact => (K.reduce key current fact).map some) none with
  | error e => rfl
  | ok current =>
    show ((K.reduce key current fact).map some).bind pure = (K.reduce key current fact).map some
    cases K.reduce key current fact <;> rfl

/-- The same facts are folded the same way. -/
theorem Kind.replay_congr {K K' : Kind κ χ ι ρ π δ ζ ε} {key : κ} (h : K.reduce key = K'.reduce key)
    (facts : List ρ) : K.replay key facts = K'.replay key facts := by
  unfold Kind.replay
  rw [h]

section Recording

variable [DecidableEq κ] [DecidableEq χ]

/-- The writes of a fact. -/
def Book.record (b : Book κ χ ι ρ π) (key : κ) (command : χ) (entry : ι) (fact : ρ) (p : π) :
    Book κ χ ι ρ π where
  facts := Function.update b.facts key (b.facts key ++ [fact])
  commands := Function.update b.commands command (some entry)
  projections := Function.update b.projections key (some p)

theorem Book.facts_record (b : Book κ χ ι ρ π) (key : κ) (command : χ) (entry : ι) (fact : ρ) (p : π)
    (key' : κ) : (b.record key command entry fact p).facts key' =
      if key' = key then b.facts key ++ [fact] else b.facts key' := by
  show Function.update b.facts key (b.facts key ++ [fact]) key' = _
  by_cases hkey : key' = key
  · rw [hkey, Function.update_self, if_pos rfl]
  · rw [Function.update_of_ne hkey, if_neg hkey]

/-- A fact that may be appended next. -/
structure Next (K : Kind κ χ ι ρ π δ ζ ε) (b : Book κ χ ι ρ π) (key : κ) (command : χ)
    (content : ζ) (fact : ρ) (p : π) : Prop where
  fresh : b.commands command = none
  sequence : K.sequence fact = (b.facts key).length + 1
  previous : K.previous fact = HashChain.lastDigest K.digest K.start (b.facts key)
  sealed : K.digest fact = K.recompute fact
  command : K.command key fact = command
  content : K.content key fact = content
  reduced : K.reduce key (b.projections key) fact = .ok p

/-- How a command is answered, and the book it leaves. -/
inductive Answer (K : Kind κ χ ι ρ π δ ζ ε) (b : Book κ χ ι ρ π) (key : κ) (command : χ)
    (content : ζ) : Except ε π × Book κ χ ι ρ π → Prop
  | replayed (p : π) (hknown : b.commands command = some (K.entry key content))
    (hp : b.projections key = some p) : Answer K b key command content (.ok p, b)
  | recorded (fact : ρ) (p : π) (hnext : Next K b key command content fact p) :
    Answer K b key command content (.ok p, b.record key command (K.entry key content) fact p)
  | refused (e : ε)
    (hother : b.commands command = some (K.entry key content) → b.projections key = none) :
    Answer K b key command content (.error e, b)

/-- **The laws of a book.** -/
structure Laws (K : Kind κ χ ι ρ π δ ζ ε) (b : Book κ χ ι ρ π) : Prop where
  numbered : ∀ key, (b.facts key).map K.sequence = (List.range (b.facts key).length).map (· + 1)
  chained : ∀ key, HashChain.Linked K.previous K.digest K.start (b.facts key)
  sealed : ∀ key, ∀ fact ∈ b.facts key, K.digest fact = K.recompute fact
  replayed : ∀ key, K.replay key (b.facts key) = .ok (b.projections key)
  known : ∀ key, ∀ fact ∈ b.facts key,
    b.commands (K.command key fact) = some (K.entry key (K.content key fact))
  distinct : ∀ key, ((b.facts key).map (K.command key)).Nodup
  apart : ∀ key key' fact fact', fact ∈ b.facts key → fact' ∈ b.facts key' →
    K.command key fact = K.command key' fact' → key = key'
  indexed : ∀ command entry, b.commands command = some entry →
    ∃ key, ∃ fact ∈ b.facts key, K.command key fact = command ∧ K.entry key (K.content key fact) = entry

variable {K K' : Kind κ χ ι ρ π δ ζ ε} {b : Book κ χ ι ρ π} {key : κ} {command : χ}
  {content : ζ} {fact : ρ} {p : π}

omit [DecidableEq κ] [DecidableEq χ] in
theorem Laws.empty : Laws K (Book.empty : Book κ χ ι ρ π) where
  numbered _ := rfl
  chained _ := trivial
  sealed _ _ hfact := absurd hfact List.not_mem_nil
  replayed _ := rfl
  known _ _ hfact := absurd hfact List.not_mem_nil
  distinct _ := List.nodup_nil
  apart _ _ _ _ hfact := absurd hfact List.not_mem_nil
  indexed _ _ h := by cases h

omit [DecidableEq κ] [DecidableEq χ] in
/-- An aggregate without facts may be folded in another way from now on. -/
theorem Laws.refold (h : Laws K b) (hsame : K' = { K with reduce := K'.reduce })
    (hreduce : ∀ key, b.facts key ≠ [] → K'.reduce key = K.reduce key) : Laws K' b := by
  rw [hsame]
  refine ⟨h.numbered, h.chained, h.sealed, fun key => ?_, h.known, h.distinct, h.apart, h.indexed⟩
  rw [← h.replayed key]
  by_cases hfacts : b.facts key = []
  · rw [hfacts]
    rfl
  · exact Kind.replay_congr (hreduce key hfacts) _

omit [DecidableEq κ] [DecidableEq χ] in
/-- The command of the next fact is the command of no fact. -/
theorem Laws.fresh (h : Laws K b) (hnext : Next K b key command content fact p) {key' : κ} {f : ρ}
    (hf : f ∈ b.facts key') : K.command key' f ≠ command := by
  intro hcommand
  have hknown := h.known key' f hf
  rw [hcommand, hnext.fresh] at hknown
  cases hknown

/-- **A recorded fact keeps the laws.** -/
theorem Laws.record (h : Laws K b) (hnext : Next K b key command content fact p) :
    Laws K (b.record key command (K.entry key content) fact p) := by
  -- a fact of the new book is an old one or the new one
  have hcases : ∀ {key' : κ} {f : ρ}, f ∈ (b.record key command (K.entry key content) fact p).facts key' →
      f ∈ b.facts key' ∨ key' = key ∧ f = fact := by
    intro key' f hf
    rw [Book.facts_record] at hf
    split at hf
    · rename_i hkey
      subst hkey
      rcases List.mem_append.mp hf with hf | hf
      · exact .inl hf
      · exact .inr ⟨rfl, List.mem_singleton.mp hf⟩
    · exact .inl hf
  constructor
  · intro key'
    rw [Book.facts_record]
    split
    · rw [List.length_append, List.length_singleton, List.range_succ, List.map_append,
        List.map_append, h.numbered, List.map_singleton, List.map_singleton, hnext.sequence]
    · exact h.numbered key'
  · intro key'
    rw [Book.facts_record]
    split
    · exact HashChain.linked_concat.mpr ⟨h.chained key, hnext.previous⟩
    · exact h.chained key'
  · intro key' f hf
    rcases hcases hf with hf | ⟨-, rfl⟩
    · exact h.sealed key' f hf
    · exact hnext.sealed
  · intro key'
    rw [Book.facts_record]
    show _ = Except.ok (Function.update b.projections key (some p) key')
    split
    · rename_i hkey
      rw [hkey, Kind.replay_concat, h.replayed, Function.update_self]
      show (K.reduce key (b.projections key) fact).map some = _
      rw [hnext.reduced]
      rfl
    · rename_i hkey
      rw [Function.update_of_ne hkey]
      exact h.replayed key'
  · intro key' f hf
    show Function.update b.commands command (some (K.entry key content)) (K.command key' f) = _
    rcases hcases hf with hf | ⟨rfl, rfl⟩
    · rw [Function.update_of_ne (h.fresh hnext hf)]
      exact h.known key' f hf
    · rw [hnext.command, Function.update_self, hnext.content]
  · intro key'
    rw [Book.facts_record]
    split
    · rename_i hkey
      subst hkey
      rw [List.map_append, List.nodup_append]
      refine ⟨h.distinct key', List.nodup_singleton _, ?_⟩
      rintro a ha c hc rfl
      obtain ⟨f, hf, rfl⟩ := List.mem_map.mp ha
      refine h.fresh hnext hf ?_
      rw [List.mem_singleton.mp hc]
      exact hnext.command
    · exact h.distinct key'
  · intro key₁ key₂ f g hf hg hsame
    rcases hcases hf with hold | ⟨hkey, hnew⟩
    · rcases hcases hg with hold' | ⟨hkey', hnew'⟩
      · exact h.apart key₁ key₂ f g hold hold' hsame
      · subst hkey' hnew'
        exact absurd (hsame.trans hnext.command) (h.fresh hnext hold)
    · subst hkey hnew
      rcases hcases hg with hold' | ⟨hkey', hnew'⟩
      · exact absurd (hsame.symm.trans hnext.command) (h.fresh hnext hold')
      · exact hkey'.symm
  · intro command' entry' hentry
    have hentry' : Function.update b.commands command (some (K.entry key content)) command' =
      some entry' := hentry
    by_cases hsame : command' = command
    · subst hsame
      rw [Function.update_self] at hentry'
      refine ⟨key, fact, ?_, hnext.command, ?_⟩
      swap
      · rw [hnext.content]
        exact Option.some.inj hentry'
      rw [Book.facts_record, if_pos rfl]
      exact List.mem_append_right _ List.mem_cons_self
    · rw [Function.update_of_ne hsame] at hentry'
      obtain ⟨key', f, hf, hcommand, hsameEntry⟩ := h.indexed command' entry' hentry'
      refine ⟨key', f, ?_, hcommand, hsameEntry⟩
      rw [Book.facts_record]
      split
      · rename_i hkey
        subst hkey
        exact List.mem_append_left _ hf
      · exact hf

variable {out : Except ε π × Book κ χ ι ρ π}

/-- **Every answer keeps the laws.** -/
theorem Laws.answered (h : Laws K b) (hanswer : Answer K b key command content out) : Laws K out.2 := by
  cases hanswer with
  | replayed p hknown hp => exact h
  | recorded fact p hnext => exact h.record hnext
  | refused e hother => exact h

/-- An error leaves the book alone. -/
theorem Answer.error (hanswer : Answer K b key command content out) {e : ε} (he : out.1 = .error e) :
    out.2 = b := by
  cases hanswer with
  | replayed p hknown hp => rfl
  | recorded fact p hnext => cases he
  | refused e' hother => rfl

/-! ## Reading the laws -/

omit [DecidableEq κ] [DecidableEq χ] in
/-- An aggregate has no facts and no projection, or its projection is the fold of the last fact. -/
theorem Laws.folded (h : Laws K b) (key : κ) :
    (b.facts key = [] ∧ b.projections key = none) ∨
      ∃ before last current p, b.facts key = before ++ [last] ∧
        K.reduce key current last = .ok p ∧ b.projections key = some p := by
  have hreplayed := h.replayed key
  rcases List.eq_nil_or_concat (b.facts key) with hnil | ⟨before, last, hlast⟩
  · rw [hnil] at hreplayed
    exact .inl ⟨hnil, (Except.ok.inj hreplayed).symm⟩
  · rw [List.concat_eq_append] at hlast
    rw [hlast, Kind.replay_concat] at hreplayed
    obtain ⟨current, -, hmap⟩ := except_bind_ok.mp hreplayed
    cases hreduce : K.reduce key current last with
    | error e =>
      rw [hreduce] at hmap
      cases hmap
    | ok p =>
      rw [hreduce] at hmap
      exact .inr ⟨before, last, current, p, hlast, hreduce, (Except.ok.inj hmap).symm⟩

omit [DecidableEq κ] [DecidableEq χ] in
/-- An aggregate with facts has a projection. -/
theorem Laws.projected (h : Laws K b) (hfact : fact ∈ b.facts key) : ∃ p, b.projections key = some p := by
  rcases h.folded key with ⟨hnil, -⟩ | ⟨-, -, -, p, -, -, hp⟩
  · rw [hnil] at hfact
    exact absurd hfact List.not_mem_nil
  · exact ⟨p, hp⟩

omit [DecidableEq κ] [DecidableEq χ] in
/-- The stored projection is the fold of the facts. -/
theorem Laws.rebuilt (h : Laws K b) (hp : b.projections key = some p) :
    K.replay key (b.facts key) = .ok (some p) := by
  rw [h.replayed, hp]

/-- **A repeated command** is answered from the projection. -/
theorem Laws.answer_same (h : Laws K b) (hfact : fact ∈ b.facts key)
    (hcommand : K.command key fact = command) (hcontent : K.content key fact = content)
    (hanswer : Answer K b key command content out) :
    ∃ p, b.projections key = some p ∧ out = (.ok p, b) := by
  have hknown := h.known key fact hfact
  rw [hcommand, hcontent] at hknown
  obtain ⟨p, hp⟩ := h.projected hfact
  cases hanswer with
  | replayed q hknown' hq => exact ⟨q, hq, rfl⟩
  | recorded new q hnext =>
    rw [hnext.fresh] at hknown
    cases hknown
  | refused e hother =>
    rw [hother hknown] at hp
    cases hp

/-- **A command with another entry** is refused. -/
theorem Laws.answer_other (h : Laws K b) {key' : κ} (hfact : fact ∈ b.facts key')
    (hcommand : K.command key' fact = command)
    (hentry : K.entry key' (K.content key' fact) ≠ K.entry key content)
    (hanswer : Answer K b key command content out) : ∃ e, out = (.error e, b) := by
  have hknown := h.known key' fact hfact
  rw [hcommand] at hknown
  cases hanswer with
  | replayed q hknown' hq =>
    rw [hknown] at hknown'
    exact absurd (Option.some.inj hknown') hentry
  | recorded new q hnext =>
    rw [hnext.fresh] at hknown
    cases hknown
  | refused e hother => exact ⟨e, rfl⟩

omit [DecidableEq κ] [DecidableEq χ] in
/-! ## What was asked -/

/-- The facts have contents that were asked of their aggregates. -/
def Asked (K : Kind κ χ ι ρ π δ ζ ε) (A : κ → ζ → Prop) (b : Book κ χ ι ρ π) : Prop :=
  ∀ key, ∀ fact ∈ b.facts key, A key (K.content key fact)

theorem Asked.answered {A : κ → ζ → Prop} (h : Asked K A b) (hA : A key content)
    (hanswer : Answer K b key command content out) : Asked K A out.2 := by
  cases hanswer with
  | replayed p hknown hp => exact h
  | refused e hother => exact h
  | recorded fact p hnext =>
    intro key' f hf
    have hf' : f ∈ (b.record key command (K.entry key content) fact p).facts key' := hf
    rw [Book.facts_record] at hf'
    split at hf'
    · rename_i hkey
      subst hkey
      rcases List.mem_append.mp hf' with hold | hnew
      · exact h key' f hold
      · rw [List.mem_singleton.mp hnew, hnext.content]
        exact hA
    · exact h key' f hf'

end Recording

end FactBook

end Aegis
