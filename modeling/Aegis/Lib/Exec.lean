/-
  PROGRAMS THAT READ AND CHANGE A STATE AND MAY RAISE.

  `Exec ε σ α` is a Python method body: from a state it returns a value or raises, and EITHER WAY
  leaves a state behind.  What was written before an exception stays written, so "a failed call
  changes nothing" is a theorem about a method and never a feature of the monad.

  `Sat x s Q R` is the one judgment: run from `s`, the body returns in a state that meets `Q` or
  raises in one that meets `R`.  Each operator has one rule, an equivalence, so that a body is
  walked through by rewriting (`sat_bind`, `sat_require`, ...) and a caller uses the judgment of
  the callee through `Sat.mono` without unfolding it.
-/
import Mathlib

namespace Aegis

/-- A chain of checks passes when each of them does. -/
theorem except_bind_ok {ε α β : Type} {x : Except ε α} {f : α → Except ε β} {b : β} :
    (x >>= f) = .ok b ↔ ∃ a, x = .ok a ∧ f a = .ok b := by
  cases x with
  | ok a =>
    refine ⟨fun h => ⟨a, rfl, h⟩, ?_⟩
    rintro ⟨a', ha, hf⟩; cases ha; exact hf
  | error e =>
    refine ⟨fun h => (by cases h), ?_⟩
    rintro ⟨a, ha, -⟩; cases ha

/-- A body that runs in states `σ`, raises errors `ε` and returns an `α`. -/
def Exec (ε σ α : Type) : Type := σ → Except ε α × σ

namespace Exec

variable {ε σ α β : Type}

/-- Return `a`. -/
def ret (a : α) : Exec ε σ α := fun s => (.ok a, s)

/-- Run `x`, then `f` on what it returned; an exception of `x` is passed on with the state `x` left. -/
def andThen (x : Exec ε σ α) (f : α → Exec ε σ β) : Exec ε σ β := fun s =>
  match x s with
  | (.ok a, s') => f a s'
  | (.error e, s') => (.error e, s')

instance : Monad (Exec ε σ) where
  pure := ret
  bind := andThen

/-- What is returned is passed on. -/
theorem bind_returns {x : Exec ε σ α} {f : α → Exec ε σ β} {s s' : σ} {a : α} (h : x s = (.ok a, s')) :
    (x >>= f) s = f a s' := by
  show andThen x f s = f a s'
  unfold andThen
  rw [h]

/-- `raise e`. -/
def raise (e : ε) : Exec ε σ α := fun s => (.error e, s)

/-- The current state. -/
def read : Exec ε σ σ := fun s => (.ok s, s)

/-- Change the state. -/
def modify (f : σ → σ) : Exec ε σ Unit := fun s => (.ok (), f s)

/-- A computation that looks at no state: a constructor that validates its arguments. -/
def lift (r : Except ε α) : Exec ε σ α := fun s => (r, s)

/-- `if not c: raise e`. -/
def require (c : Prop) [Decidable c] (e : ε) : Exec ε σ Unit := if c then ret () else raise e

theorem require_pos {c : Prop} [Decidable c] {e : ε} (hc : c) :
    (require c e : Exec ε σ Unit) = ret () := if_pos hc

theorem require_neg {c : Prop} [Decidable c] {e : ε} (hc : ¬c) :
    (require c e : Exec ε σ Unit) = raise e := if_neg hc

/-- `try: x  except Exception: cleanup; raise`. -/
def onError (x : Exec ε σ α) (cleanup : σ → σ) : Exec ε σ α := fun s =>
  match x s with
  | (.ok a, s') => (.ok a, s')
  | (.error e, s') => (.error e, cleanup s')

/-- `try: x  except: handler`, in the state `x` left. -/
def catching (x : Exec ε σ α) (handler : ε → Exec ε σ α) : Exec ε σ α := fun s =>
  match x s with
  | (.ok a, s') => (.ok a, s')
  | (.error e, s') => handler e s'

/-- Both ways out of `x` as a value, for a `finally` that looks at neither or a handler that goes on. -/
def reify (x : Exec ε σ α) : Exec ε σ (Except ε α) := fun s => (.ok (x s).1, (x s).2)

/-- `for a in as: body(a)`. -/
def forEach (as : List α) (body : α → Exec ε σ Unit) : Exec ε σ Unit :=
  match as with
  | [] => ret ()
  | a :: as => andThen (body a) fun _ => forEach as body

/-! ## The judgment -/

/-- Run from `s`, `x` returns with `Q` or raises with `R`. -/
def Sat (x : Exec ε σ α) (s : σ) (Q : α → σ → Prop) (R : ε → σ → Prop) : Prop :=
  match x s with
  | (.ok a, s') => Q a s'
  | (.error e, s') => R e s'

variable {x : Exec ε σ α} {f : α → Exec ε σ β} {s : σ}
  {Q Q' : α → σ → Prop} {P : β → σ → Prop} {R R' : ε → σ → Prop}

theorem sat_pure (a : α) : Sat (pure a : Exec ε σ α) s Q R ↔ Q a s := Iff.rfl

theorem sat_bind : Sat (x >>= f) s P R ↔ Sat x s (fun a s' => Sat (f a) s' P R) R := by
  show Sat (andThen x f) s P R ↔ _
  unfold Sat andThen
  rcases x s with ⟨r, s'⟩
  cases r with
  | ok a => exact Iff.rfl
  | error e => exact Iff.rfl

theorem sat_raise (e : ε) : Sat (raise e : Exec ε σ α) s Q R ↔ R e s := Iff.rfl

theorem sat_read {Q : σ → σ → Prop} : Sat (read : Exec ε σ σ) s Q R ↔ Q s s := Iff.rfl

theorem sat_modify {Q : Unit → σ → Prop} (g : σ → σ) :
    Sat (modify g : Exec ε σ Unit) s Q R ↔ Q () (g s) := Iff.rfl

theorem sat_lift (r : Except ε α) : Sat (lift r : Exec ε σ α) s Q R ↔
    (∀ a, r = .ok a → Q a s) ∧ ∀ e, r = .error e → R e s := by
  cases r with
  | ok a =>
    refine ⟨fun h => ⟨?_, ?_⟩, fun h => h.1 a rfl⟩
    · rintro b hb; cases hb; exact h
    · rintro e he; cases he
  | error e =>
    refine ⟨fun h => ⟨?_, ?_⟩, fun h => h.2 e rfl⟩
    · rintro b hb; cases hb
    · rintro e' he; cases he; exact h

theorem sat_require {c : Prop} [Decidable c] {e : ε} {Q : Unit → σ → Prop} :
    Sat (require c e : Exec ε σ Unit) s Q R ↔ (c → Q () s) ∧ (¬c → R e s) := by
  unfold require
  by_cases hc : c
  · rw [if_pos hc]
    exact ⟨fun h => ⟨fun _ => h, fun hn => absurd hc hn⟩, fun h => h.1 hc⟩
  · rw [if_neg hc]
    exact ⟨fun h => ⟨fun h' => absurd h' hc, fun _ => h⟩, fun h => h.2 hc⟩

theorem sat_onError {g : σ → σ} :
    Sat (onError x g) s Q R ↔ Sat x s Q (fun e s' => R e (g s')) := by
  unfold Sat onError
  rcases x s with ⟨r, s'⟩
  cases r with
  | ok a => exact Iff.rfl
  | error e => exact Iff.rfl

theorem sat_catching {handler : ε → Exec ε σ α} :
    Sat (catching x handler) s Q R ↔ Sat x s Q (fun e s' => Sat (handler e) s' Q R) := by
  unfold Sat catching
  rcases x s with ⟨r, s'⟩
  cases r with
  | ok a => exact Iff.rfl
  | error e => exact Iff.rfl

theorem sat_reify {Q : Except ε α → σ → Prop} :
    Sat (reify x) s Q R ↔ Sat x s (fun a => Q (.ok a)) (fun e => Q (.error e)) := by
  unfold Sat reify
  rcases x s with ⟨r, s'⟩
  cases r with
  | ok a => exact Iff.rfl
  | error e => exact Iff.rfl

theorem Sat.mono (h : Sat x s Q R) (hQ : ∀ a s', Q a s' → Q' a s') (hR : ∀ e s', R e s' → R' e s') :
    Sat x s Q' R' := by
  revert h; unfold Sat
  rcases x s with ⟨r, s'⟩
  cases r with
  | ok a => exact hQ a s'
  | error e => exact hR e s'

theorem Sat.and (h : Sat x s Q R) (h' : Sat x s Q' R') :
    Sat x s (fun a s' => Q a s' ∧ Q' a s') (fun e s' => R e s' ∧ R' e s') := by
  revert h h'; unfold Sat
  rcases x s with ⟨r, s'⟩
  cases r with
  | ok a => exact And.intro
  | error e => exact And.intro

/-- A check at the head of a body. -/
theorem Sat.check {c : Prop} [Decidable c] {e : ε} {k : Unit → Exec ε σ β} (hfail : ¬c → R e s)
    (h : c → Sat (k ()) s P R) : Sat (require c e >>= k) s P R := by
  rw [sat_bind, sat_require]
  exact ⟨h, hfail⟩

/-- A validation at the head of a body. -/
theorem Sat.attempt {r : Except ε α} {k : α → Exec ε σ β} (hfail : ∀ e, r = .error e → R e s)
    (h : ∀ a, r = .ok a → Sat (k a) s P R) : Sat (lift r >>= k) s P R := by
  rw [sat_bind, sat_lift]
  exact ⟨h, hfail⟩

/-- A call at the head of a body, used through its judgment. -/
theorem Sat.call {f : α → Exec ε σ β} (hx : Sat x s Q R') (hfail : ∀ e s', R' e s' → R e s')
    (h : ∀ a s', Q a s' → Sat (f a) s' P R) : Sat (x >>= f) s P R := by
  rw [sat_bind]
  exact hx.mono h hfail

/-- A first step about which nothing needs to be said. -/
theorem Sat.skip {f : α → Exec ε σ β} (h : ∀ a s', Sat (f a) s' P (fun _ _ => True)) :
    Sat (x >>= f) s P (fun _ _ => True) := by
  rw [sat_bind]
  unfold Sat
  split
  · exact h _ _
  · trivial

/-- A loop keeps what its body keeps, whether or not an iteration raises. -/
theorem Sat.forEach {I : σ → Prop} {as : List α} {body : α → Exec ε σ Unit}
    (hbody : ∀ a ∈ as, ∀ s, I s → Sat (body a) s (fun _ => I) R) :
    ∀ s, I s → Sat (forEach as body) s (fun _ => I) R := by
  induction as with
  | nil => intro s hs; exact hs
  | cons a as ih =>
    intro s hs
    show Sat (body a >>= fun _ => Exec.forEach as body) s (fun _ => I) R
    rw [sat_bind]
    refine (hbody a List.mem_cons_self s hs).mono (fun _ s' hs' => ?_) (fun _ _ h => h)
    exact ih (fun b hb => hbody b (List.mem_cons_of_mem _ hb)) s' hs'

/-! ## Using a judgment -/

theorem Sat.ok (h : Sat x s Q R) {a : α} {s' : σ} (hx : x s = (.ok a, s')) : Q a s' := by
  unfold Sat at h; rw [hx] at h; exact h

theorem Sat.error (h : Sat x s Q R) {e : ε} {s' : σ} (hx : x s = (.error e, s')) : R e s' := by
  unfold Sat at h; rw [hx] at h; exact h

/-- What holds on both ways out holds of the state left behind. -/
theorem Sat.state {I : σ → Prop} (h : Sat x s (fun _ => I) (fun _ => I)) : I (x s).2 := by
  revert h; unfold Sat
  rcases x s with ⟨r, s'⟩
  cases r with
  | ok a => exact id
  | error e => exact id

/-- A judgment about both ways out is one about the result and the state left behind. -/
theorem Sat.outcome {P : Except ε α → σ → Prop}
    (h : Sat x s (fun a => P (.ok a)) (fun e => P (.error e))) : P (x s).1 (x s).2 := by
  revert h; unfold Sat
  rcases x s with ⟨r, s'⟩
  cases r with
  | ok a => exact id
  | error e => exact id

end Exec

end Aegis
