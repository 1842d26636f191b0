/-
  WHAT A PROGRAM LEAVES ALONE.

  `Leaves view x`: whatever `x` does, and whether it returns or raises, what `view` shows of the state is as
  it was.  Every operator of `Exec` keeps this, so for a body made of many steps it is enough to look at the
  few that write (`leaves_modify`).
-/
import Mathlib
import Aegis.Lib.Exec

namespace Aegis

namespace Exec

variable {ε σ α β γ : Type} {view : σ → γ}

/-- What `view` shows stays as it is, however `x` ends. -/
def Leaves (view : σ → γ) (x : Exec ε σ α) : Prop :=
  ∀ s, Sat x s (fun _ s' => view s' = view s) (fun _ s' => view s' = view s)

theorem leaves_pure (a : α) : Leaves view (pure a : Exec ε σ α) := fun _ => rfl

theorem leaves_raise (e : ε) : Leaves view (raise e : Exec ε σ α) := fun _ => rfl

theorem leaves_read : Leaves view (read : Exec ε σ σ) := fun _ => rfl

theorem leaves_lift (r : Except ε α) : Leaves view (lift r : Exec ε σ α) := fun _ =>
  (sat_lift r).mpr ⟨fun _ _ => rfl, fun _ _ => rfl⟩

theorem leaves_modify {f : σ → σ} (h : ∀ s, view (f s) = view s) :
    Leaves view (modify f : Exec ε σ Unit) := h

theorem leaves_require (c : Prop) [Decidable c] (e : ε) :
    Leaves view (require c e : Exec ε σ Unit) := fun _ =>
  sat_require.mpr ⟨fun _ => rfl, fun _ => rfl⟩

theorem leaves_reify {x : Exec ε σ α} (hx : Leaves view x) : Leaves view (reify x) := fun s =>
  sat_reify.mpr (hx s)

theorem leaves_bind {x : Exec ε σ α} {f : α → Exec ε σ β} (hx : Leaves view x)
    (hf : ∀ a, Leaves view (f a)) : Leaves view (x >>= f) := by
  intro s
  refine Sat.call (hx s) (fun _ _ h => h) fun a s' hs => ?_
  exact (hf a s').mono (fun _ _ h => h.trans hs) (fun _ _ h => h.trans hs)

theorem leaves_ite {c : Prop} [Decidable c] {x y : Exec ε σ α} (hx : Leaves view x)
    (hy : Leaves view y) : Leaves view (if c then x else y) := by
  by_cases hc : c
  · rw [if_pos hc]; exact hx
  · rw [if_neg hc]; exact hy

/-- A first step that leaves the view alone, before one that need not. -/
theorem Leaves.before {x : Exec ε σ α} {f : α → Exec ε σ β} {s : σ} {P : β → σ → Prop} {R : ε → σ → Prop}
    (hx : Leaves view x) (hfail : ∀ e s', view s' = view s → R e s')
    (h : ∀ a s', view s' = view s → Sat (f a) s' P R) : Sat (x >>= f) s P R :=
  Sat.call (hx s) hfail h

end Exec

end Aegis
