/-
  BODIES THAT ACT BY EVENTS.

  A long method writes in several places and may stop after any of them.  Its course is a `Path`: a
  sequence of EVENTS, each a change of the state, each allowed by a predicate of the state it meets.
  What a method may do is then said once, as that predicate; what it keeps is proved per event
  (`Path.invariant`), and where it stops does not matter.

  `Traced` is the judgment `Sat` for such bodies: the body goes along a path whether it returns or
  raises, and `P` holds where it returns.
-/
import Mathlib
import Aegis.Lib.Exec

namespace Aegis

namespace Exec

variable {ε σ α β ι : Type} {apply : ι → σ → σ} {L L' : σ → ι → Prop}

/-- `s'` is reached from `s` by events that `L` allows in the states they meet. -/
inductive Path (apply : ι → σ → σ) (L : σ → ι → Prop) : σ → σ → Prop
  | refl (s : σ) : Path apply L s s
  | snoc {s t : σ} (i : ι) (h : Path apply L s t) (hi : L t i) : Path apply L s (apply i t)

theorem Path.single {s : σ} (i : ι) (hi : L s i) : Path apply L s (apply i s) :=
  .snoc i (.refl s) hi

theorem Path.trans {s t u : σ} (h : Path apply L s t) (h' : Path apply L t u) :
    Path apply L s u := by
  induction h' with
  | refl => exact h
  | snoc i _ hi ih => exact .snoc i ih hi

/-- **Invariant rule.**  What every allowed event keeps holds along the path. -/
theorem Path.invariant {I : σ → Prop} (hI : ∀ t i, I t → L t i → I (apply i t)) {s s' : σ}
    (h : Path apply L s s') (hs : I s) : I s' := by
  induction h with
  | refl => exact hs
  | snoc i _ hi ih => exact hI _ i ih hi

/-- **Relation rule.**  What every allowed event keeps between two states holds between the ends. -/
theorem Path.relates {R : σ → σ → Prop} (hrefl : ∀ s, R s s) (htrans : ∀ a b c, R a b → R b c → R a c)
    (hR : ∀ t i, L t i → R t (apply i t)) {s s' : σ} (h : Path apply L s s') : R s s' := by
  induction h with
  | refl => exact hrefl _
  | snoc i _ hi ih => exact htrans _ _ _ ih (hR _ i hi)

theorem Path.mono (hL : ∀ t i, L t i → L' t i) {s s' : σ} (h : Path apply L s s') :
    Path apply L' s s' := by
  induction h with
  | refl => exact .refl _
  | snoc i _ hi ih => exact .snoc i ih (hL _ i hi)

/-- From `s` the body goes along a path; where it returns `a` in `s'`, `P a s'` holds. -/
def Traced (apply : ι → σ → σ) (L : σ → ι → Prop) (x : Exec ε σ α) (s : σ) (P : α → σ → Prop) :
    Prop :=
  Sat x s (fun a s' => Path apply L s s' ∧ P a s') (fun _ s' => Path apply L s s')

variable {x : Exec ε σ α} {f : α → Exec ε σ β} {s : σ} {P P' : α → σ → Prop} {Q : β → σ → Prop}

theorem Traced.path (h : Traced apply L x s P) : Path apply L s (x s).2 :=
  Sat.state (h.mono (fun _ _ h => h.1) (fun _ _ h => h))

theorem Traced.ret {a : α} (h : P a s) : Traced apply L (pure a : Exec ε σ α) s P :=
  (sat_pure a).mpr ⟨.refl s, h⟩

theorem Traced.raised (e : ε) : Traced apply L (raise e : Exec ε σ α) s P := Path.refl s

theorem Traced.bind (h : Traced apply L x s P)
    (hf : ∀ a s', P a s' → Traced apply L (f a) s' Q) : Traced apply L (x >>= f) s Q := by
  refine Sat.call h (fun _ _ hp => hp) (fun a s' ha => ?_)
  exact (hf a s' ha.2).mono (fun _ _ h => ⟨ha.1.trans h.1, h.2⟩) (fun _ _ h => ha.1.trans h)

theorem Traced.reading {g : σ → Exec ε σ β} (h : Traced apply L (g s) s Q) :
    Traced apply L (read >>= g) s Q := by
  unfold Traced
  rw [sat_bind, sat_read]
  exact h

theorem Traced.check {c : Prop} [Decidable c] {e : ε} {k : Unit → Exec ε σ β}
    (h : c → Traced apply L (k ()) s Q) : Traced apply L (require c e >>= k) s Q :=
  Sat.check (fun _ => .refl s) h

theorem Traced.attempt {r : Except ε α} {k : α → Exec ε σ β}
    (h : ∀ a, r = .ok a → Traced apply L (k a) s Q) : Traced apply L (lift r >>= k) s Q :=
  Sat.attempt (fun _ _ => .refl s) h

/-- A write at the head of a body. -/
theorem Traced.write (i : ι) {g : σ → σ} (hg : g s = apply i s) (hi : L s i)
    {k : Unit → Exec ε σ β} (h : Traced apply L (k ()) (apply i s) Q) :
    Traced apply L (modify g >>= k) s Q := by
  unfold Traced
  rw [sat_bind, sat_modify, hg]
  have hstep : Path apply L s (apply i s) := .single i hi
  exact h.mono (fun _ _ h => ⟨hstep.trans h.1, h.2⟩) (fun _ _ h => hstep.trans h)

/-- A write that ends a body. -/
theorem Traced.wrote (i : ι) {g : σ → σ} {P : Unit → σ → Prop} (hg : g s = apply i s) (hi : L s i)
    (h : P () (apply i s)) : Traced apply L (modify g : Exec ε σ Unit) s P := by
  unfold Traced
  rw [sat_modify, hg]
  exact ⟨.single i hi, h⟩

/-- A check that ends a body. -/
theorem Traced.checked {c : Prop} [Decidable c] {e : ε} {P : Unit → σ → Prop} (h : c → P () s) :
    Traced apply L (require c e : Exec ε σ Unit) s P :=
  sat_require.mpr ⟨fun hc => ⟨.refl s, h hc⟩, fun _ => .refl s⟩

theorem Traced.mono_events (h : Traced apply L x s P) (hL : ∀ t i, L t i → L' t i) :
    Traced apply L' x s P :=
  h.mono (fun _ _ h => ⟨h.1.mono hL, h.2⟩) (fun _ _ h => h.mono hL)

/-- Where the body returns, the path to there is at hand. -/
theorem Traced.via (h : Traced apply L x s P) :
    Traced apply L x s (fun a s' => Path apply L s s' ∧ P a s') :=
  h.mono (fun _ _ h => ⟨h.1, h⟩) (fun _ _ h => h)

theorem Traced.weaken (h : Traced apply L x s P) (hP : ∀ a s', P a s' → P' a s') :
    Traced apply L x s P' :=
  h.mono (fun a s' h => ⟨h.1, hP a s' h.2⟩) (fun _ _ h => h)

end Exec

end Aegis
