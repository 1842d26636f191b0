/-
  WHAT THE CALLS OF OTHERS DO NOT CHANGE.

  `Alike R x y s t`: from `s` and `t` two bodies end the same way -- one value, or one error -- in states
  that `R` relates.  Each operator of `Exec` has its rule.

  `own_results` is unwinding: when OWN calls on related states have one result, and the other calls leave
  the relation as it is, the own calls of a run have the results they have in the run without the others.
-/
import Mathlib
import Aegis.Lib.Exec
import Aegis.Lib.Machine

namespace Aegis

namespace Exec

variable {ε σ α β : Type} {R : σ → σ → Prop} {s t : σ}

/-- From `s` and `t` the bodies end the same way, in related states. -/
def Alike (R : σ → σ → Prop) (x y : Exec ε σ α) (s t : σ) : Prop :=
  (x s).1 = (y t).1 ∧ R (x s).2 (y t).2

theorem alike_pure (a : α) (h : R s t) : Alike R (pure a : Exec ε σ α) (pure a) s t := ⟨rfl, h⟩

theorem alike_lift (r : Except ε α) (h : R s t) : Alike R (lift r) (lift r) s t := ⟨rfl, h⟩

theorem alike_modify {f g : σ → σ} (h : R (f s) (g t)) :
    Alike R (modify f : Exec ε σ Unit) (modify g) s t := ⟨rfl, h⟩

theorem alike_bind {x y : Exec ε σ α} {f g : α → Exec ε σ β} (hxy : Alike R x y s t)
    (hfg : ∀ a s' t', R s' t' → Alike R (f a) (g a) s' t') : Alike R (x >>= f) (y >>= g) s t := by
  revert hxy
  show Alike R x y s t → Alike R (andThen x f) (andThen y g) s t
  unfold Alike andThen
  rcases x s with ⟨r, s'⟩
  rcases y t with ⟨r', t'⟩
  rintro ⟨hresult, hstate⟩
  cases hresult
  cases r with
  | ok a => exact hfg a s' t' hstate
  | error e => exact ⟨rfl, hstate⟩

/-- What the bodies read may differ. -/
theorem alike_read {f g : σ → Exec ε σ β} (h : Alike R (f s) (g t) s t) :
    Alike R (read >>= f) (read >>= g) s t := h

theorem alike_check {c : Prop} [Decidable c] {e : ε} {f g : Unit → Exec ε σ β} (h : R s t)
    (hfg : Alike R (f ()) (g ()) s t) : Alike R (require c e >>= f) (require c e >>= g) s t := by
  by_cases hc : c
  · rw [require_pos hc]
    exact hfg
  · rw [require_neg hc]
    exact ⟨rfl, h⟩

end Exec

namespace Machine

variable {σ α ρ : Type} (step : σ → α → ρ × σ) {R : σ → σ → Prop} (own : α → Prop) [DecidablePred own]

/-- **Unwinding.**  The own calls of a run have the results they have when only they are made. -/
theorem own_results
    (hown : ∀ s t a, R s t → own a → (step s a).1 = (step t a).1 ∧ R (step s a).2 (step t a).2)
    (hother : ∀ s t a, R s t → ¬own a → R (step s a).2 t) (ops : List α) {s t : σ} (h : R s t) :
    ((trace step s ops).filter fun e => own e.op).map Entry.result =
      (trace step t (ops.filter fun a => own a)).map Entry.result := by
  induction ops generalizing s t with
  | nil => rfl
  | cons a ops ih =>
    rw [trace, List.filter_cons, List.filter_cons]
    by_cases ha : own a
    · obtain ⟨hresult, hnext⟩ := hown s t a h ha
      rw [if_pos (decide_eq_true ha), if_pos (by exact decide_eq_true ha), trace, List.map_cons,
        List.map_cons, ih hnext]
      exact congrArg (· :: _) hresult
    · have hno : ¬decide (own a) = true := fun htrue => ha (of_decide_eq_true htrue)
      rw [if_neg hno, if_neg (by exact hno)]
      exact ih (hother s t a h ha)

end Machine

end Aegis
