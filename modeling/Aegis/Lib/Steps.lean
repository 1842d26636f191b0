/-
  PROGRAMS IN ATOMIC STEPS.

  `Exec` runs a method body from one state to another; what happens HALFWAY is lost.  `Steps` keeps it:
  a program is done, or it takes one atomic step -- a LABEL that names the call, a write of the shared
  state, and the program that goes on from what the step has read.  Between two steps the program may
  stop for good, or somebody else may move.

  `exec` runs a program undisturbed, and `exec_bind`, `exec_atom` say that this is `Exec` again.  `crashed`
  stops it after some steps.

  `Along C I Q p s` is the judgment for both at once: as long as every step meets the promise `C`, the
  CRASH INVARIANT `I` holds after each of them, and `Q` holds where the program ends.
-/
import Mathlib
import Aegis.Lib.Exec

namespace Aegis

/-- A program in steps labelled `ℓ`, over states `σ`, that raises an `ε` or returns an `α`. -/
inductive Steps (ℓ ε σ α : Type) where
  | done (result : Except ε α)
  | step (label : ℓ) (write : σ → σ) (next : σ → Steps ℓ ε σ α)

namespace Steps

variable {ℓ ε σ α β : Type}

/-- A body that runs in one step. -/
def atom (label : ℓ) (x : Exec ε σ α) : Steps ℓ ε σ α :=
  .step label (fun s => (x s).2) (fun s => .done (x s).1)

/-- `raise e`. -/
def raise (e : ε) : Steps ℓ ε σ α := .done (.error e)

/-- `if not c: raise e`; the check is local, so it takes no step. -/
def require (c : Prop) [Decidable c] (e : ε) : Steps ℓ ε σ Unit :=
  .done (if c then .ok () else .error e)

theorem require_pos {c : Prop} [Decidable c] {e : ε} (hc : c) :
    (require c e : Steps ℓ ε σ Unit) = .done (.ok ()) := congrArg done (if_pos hc)

theorem require_neg {c : Prop} [Decidable c] {e : ε} (hc : ¬c) :
    (require c e : Steps ℓ ε σ Unit) = .done (.error e) := congrArg done (if_neg hc)

/-- `p`, then `f` on what it returned. -/
def andThen (p : Steps ℓ ε σ α) (f : α → Steps ℓ ε σ β) : Steps ℓ ε σ β :=
  match p with
  | .done (.ok a) => f a
  | .done (.error e) => .done (.error e)
  | .step label write next => .step label write fun s => andThen (next s) f

/-- `try: p  except: handler`. -/
def catching (p : Steps ℓ ε σ α) (handler : ε → Steps ℓ ε σ α) : Steps ℓ ε σ α :=
  match p with
  | .done (.ok a) => .done (.ok a)
  | .done (.error e) => handler e
  | .step label write next => .step label write fun s => catching (next s) handler

instance : Monad (Steps ℓ ε σ) where
  pure a := .done (.ok a)
  bind := andThen

/-! ## Running undisturbed -/

/-- The program as a body: all its steps, one after the other. -/
def exec : Steps ℓ ε σ α → Exec ε σ α
  | .done r => Exec.lift r
  | .step _ write next => fun s => exec (next s) (write s)

theorem exec_require (c : Prop) [Decidable c] (e : ε) :
    (require c e : Steps ℓ ε σ Unit).exec = Exec.require c e := by
  funext s
  unfold require Exec.require
  split <;> rfl

theorem exec_bind (p : Steps ℓ ε σ α) (f : α → Steps ℓ ε σ β) :
    (p >>= f).exec = p.exec >>= fun a => (f a).exec := by
  show (andThen p f).exec = Exec.andThen p.exec fun a => (f a).exec
  induction p with
  | done r =>
    cases r with
    | ok a => rfl
    | error e => rfl
  | step label write next ih =>
    funext s
    exact congrFun (ih s) (write s)

/-- Two runs agree when their heads and their rests do. -/
theorem exec_seq {p : Steps ℓ ε σ α} {f : α → Steps ℓ ε σ β} {x : Exec ε σ α} {g : α → Exec ε σ β}
    {s : σ} (hp : p.exec s = x s) (hf : ∀ a s', (f a).exec s' = g a s') :
    (p >>= f).exec s = (x >>= g) s := by
  rw [exec_bind]
  show Exec.andThen _ _ s = Exec.andThen _ _ s
  unfold Exec.andThen
  rw [hp]
  rcases x s with ⟨r, s'⟩
  cases r with
  | ok a => exact hf a s'
  | error e => rfl

/-! ## Halfway -/

/-- One step of a run: its label, and the states around it. -/
structure Mark (ℓ σ : Type) where
  label : ℓ
  before : σ
  after : σ

/-- The steps of a program that runs undisturbed. -/
def marks : Steps ℓ ε σ α → σ → List (Mark ℓ σ)
  | .done _, _ => []
  | .step label write next, s => ⟨label, s, write s⟩ :: marks (next s) (write s)

/-- The state after the first `n` steps. -/
def crashed : Nat → Steps ℓ ε σ α → σ → σ
  | 0, _, s => s
  | _ + 1, .done _, s => s
  | n + 1, .step _ write next, s => crashed n (next s) (write s)

/-- The first `n` steps. -/
def marksUntil (n : Nat) (p : Steps ℓ ε σ α) (s : σ) : List (Mark ℓ σ) := (p.marks s).take n

/-! ## The crash judgment -/

/-- As long as the steps meet `C`: `I` after each step, `Q` at the end. -/
def Along (C : ℓ → σ → Prop) (I : σ → Prop) (Q : Except ε α → σ → Prop) :
    Steps ℓ ε σ α → σ → Prop
  | .done r, s => Q r s
  | .step label write next, s => C label s → I (write s) ∧ Along C I Q (next s) (write s)

variable {C : ℓ → σ → Prop} {I : σ → Prop} {Q Q' : Except ε α → σ → Prop}
  {R : Except ε β → σ → Prop} {p : Steps ℓ ε σ α} {f : α → Steps ℓ ε σ β} {s : σ}

theorem Along.mono (h : Along C I Q p s) (hQ : ∀ r s', Q r s' → Q' r s') : Along C I Q' p s := by
  induction p generalizing s with
  | done r => exact hQ r s h
  | step label write next ih =>
    intro hC
    exact ⟨(h hC).1, ih s (h hC).2⟩

/-- What holds along a program, in a weaker form. -/
theorem Along.weaken {I' : σ → Prop} (h : Along C I Q p s) (hI : ∀ s, I s → I' s)
    (hQ : ∀ r s', Q r s' → Q' r s') : Along C I' Q' p s := by
  induction p generalizing s with
  | done r => exact hQ r s h
  | step label write next ih =>
    intro hC
    exact ⟨hI _ (h hC).1, ih s (h hC).2⟩

/-- A call at the head of a program: an exception ends it. -/
theorem Along.bind (h : Along C I Q p s) (hfail : ∀ e s', Q (.error e) s' → R (.error e) s')
    (hnext : ∀ a s', Q (.ok a) s' → Along C I R (f a) s') : Along C I R (p >>= f) s := by
  show Along C I R (andThen p f) s
  induction p generalizing s with
  | done r =>
    cases r with
    | ok a => exact hnext a s h
    | error e => exact hfail e s h
  | step label write next ih =>
    intro hC
    exact ⟨(h hC).1, ih s (h hC).2⟩

/-- A handler goes on where an exception ended the program. -/
theorem Along.catching {handler : ε → Steps ℓ ε σ α} (h : Along C I Q p s)
    (hok : ∀ a s', Q (.ok a) s' → Q' (.ok a) s')
    (herror : ∀ e s', Q (.error e) s' → Along C I Q' (handler e) s') :
    Along C I Q' (Steps.catching p handler) s := by
  induction p generalizing s with
  | done r =>
    cases r with
    | ok a => exact hok a s h
    | error e => exact herror e s h
  | step label write next ih =>
    intro hC
    exact ⟨(h hC).1, ih s (h hC).2⟩

/-- One step, through the judgment of its body. -/
theorem along_atom {label : ℓ} {x : Exec ε σ α}
    (h : C label s → Exec.Sat x s (fun a s' => I s' ∧ Q (.ok a) s')
      (fun e s' => I s' ∧ Q (.error e) s')) : Along C I Q (atom label x) s := by
  intro hC
  exact (h hC).outcome (P := fun r s' => I s' ∧ Q r s')

/-- One step at the head of a program. -/
theorem Along.atom {label : ℓ} {x : Exec ε σ α}
    (h : C label s → Exec.Sat x s (fun a s' => I s' ∧ Along C I R (f a) s')
      (fun e s' => I s' ∧ R (.error e) s')) : Along C I R (atom label x >>= f) s := by
  intro hC
  exact (h hC).outcome (P := fun r s' => I s' ∧ Along C I R (andThen (.done r) f) s')

/-- A local check at the head of a program. -/
theorem Along.check {c : Prop} [Decidable c] {e : ε} {f : Unit → Steps ℓ ε σ β}
    (hfail : ¬c → R (.error e) s) (h : c → Along C I R (f ()) s) :
    Along C I R (require c e >>= f) s := by
  show Along C I R (andThen (require c e) f) s
  unfold require
  by_cases hc : c
  · rw [if_pos hc]
    exact h hc
  · rw [if_neg hc]
    exact hfail hc

/-- A local validation at the head of a program. -/
theorem Along.attempt {r : Except ε α} (hfail : ∀ e, r = .error e → R (.error e) s)
    (h : ∀ a, r = .ok a → Along C I R (f a) s) : Along C I R (done r >>= f) s := by
  cases r with
  | ok a => exact h a rfl
  | error e => exact hfail e rfl

/-- **Crash rule.**  Wherever the program stops, the invariant holds. -/
theorem Along.crashed (h : Along C I Q p s) (hs : I s) (n : Nat)
    (hC : ∀ m ∈ p.marksUntil n s, C m.label m.before) : I (p.crashed n s) := by
  induction n generalizing p s with
  | zero =>
    cases p with
    | done r => exact hs
    | step label write next => exact hs
  | succ n ih =>
    cases p with
    | done r => exact hs
    | step label write next =>
      have hhead : C label s := hC ⟨label, s, write s⟩ List.mem_cons_self
      exact ih (h hhead).2 (h hhead).1 fun m hm => hC m (List.mem_cons_of_mem _ hm)

/-- **Completion rule.**  A program that goes through ends in `Q`. -/
theorem Along.exec (h : Along C I Q p s) (hC : ∀ m ∈ p.marks s, C m.label m.before) :
    Q (p.exec s).1 (p.exec s).2 := by
  induction p generalizing s with
  | done r => exact h
  | step label write next ih =>
    have hhead : C label s := hC ⟨label, s, write s⟩ List.mem_cons_self
    exact ih s (h hhead).2 fun m hm => hC m (List.mem_cons_of_mem _ hm)

end Steps

end Aegis
