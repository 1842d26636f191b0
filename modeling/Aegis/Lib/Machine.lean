/-
  RUNS OF A STATE MACHINE.

  `step : σ → α → ρ × σ` takes a call from a state to its result and the next state.  A run is a
  list of calls; `final` is the state it ends in and `trace` its HISTORY, one `Entry` per call with
  the states around it.

  Two ways to prove something of every run:
    * `run_invariant`     -- a predicate of the state, kept by every call that is allowed;
    * `history_induction` -- a predicate of the history so far and the state, kept when a call is
      added at the END.  It ties what is stored now to the calls that stored it.
  Two calls of one run are compared through `trace_pair`: the second starts in a state the run
  reaches from the one the first left.
-/
import Mathlib

namespace Aegis

namespace Machine

variable {σ α ρ : Type}

/-- One call of a run, with the states before and after it. -/
structure Entry (σ α ρ : Type) where
  before : σ
  op : α
  result : ρ
  after : σ

/-- The entry a call makes from `s`. -/
def entry (step : σ → α → ρ × σ) (s : σ) (a : α) : Entry σ α ρ :=
  { before := s, op := a, result := (step s a).1, after := (step s a).2 }

/-- The state after the calls `ops`. -/
def final (step : σ → α → ρ × σ) (s : σ) : List α → σ
  | [] => s
  | a :: ops => final step (step s a).2 ops

/-- The history of the calls `ops`. -/
def trace (step : σ → α → ρ × σ) (s : σ) : List α → List (Entry σ α ρ)
  | [] => []
  | a :: ops => entry step s a :: trace step (step s a).2 ops

variable {step : σ → α → ρ × σ}

theorem final_append (s : σ) (xs ys : List α) :
    final step s (xs ++ ys) = final step (final step s xs) ys := by
  induction xs generalizing s with
  | nil => rfl
  | cons a xs ih => exact ih (step s a).2

theorem trace_append (s : σ) (xs ys : List α) :
    trace step s (xs ++ ys) = trace step s xs ++ trace step (final step s xs) ys := by
  induction xs generalizing s with
  | nil => rfl
  | cons a xs ih => exact congrArg (List.cons (entry step s a)) (ih (step s a).2)

theorem final_concat (s : σ) (xs : List α) (a : α) :
    final step s (xs ++ [a]) = (step (final step s xs) a).2 := final_append s xs [a]

theorem trace_concat (s : σ) (xs : List α) (a : α) :
    trace step s (xs ++ [a]) = trace step s xs ++ [entry step (final step s xs) a] :=
  trace_append s xs [a]

/-- **Invariant rule.**  `I` holds at the start and every allowed call keeps it. -/
theorem run_invariant {I : σ → Prop} {C : σ → α → Prop}
    (hstep : ∀ s a, I s → C s a → I (step s a).2) :
    ∀ (ops : List α) (s : σ), I s → (∀ e ∈ trace step s ops, C e.before e.op) →
      I (final step s ops) := by
  intro ops
  induction ops with
  | nil => intro s hs _; exact hs
  | cons a ops ih =>
    intro s hs hC
    refine ih _ (hstep s a hs (hC _ List.mem_cons_self)) (fun e he => ?_)
    exact hC e (List.mem_cons_of_mem _ he)

/-- The invariant rule when every call is allowed. -/
theorem run_invariant_all {I : σ → Prop} (hstep : ∀ s a, I s → I (step s a).2) (s : σ) (hs : I s)
    (ops : List α) : I (final step s ops) := by
  refine run_invariant (C := fun _ _ => True) (fun s a h _ => hstep s a h) ops s hs ?_
  intro _ _; trivial

/-- **History rule.**  `I` ties the history to the state and is kept when a call is added at the
    end. -/
theorem history_induction {I : List (Entry σ α ρ) → σ → Prop} {s : σ} (hinit : I [] s)
    (hstep : ∀ h s a, I h s → I (h ++ [entry step s a]) (step s a).2) (ops : List α) :
    I (trace step s ops) (final step s ops) := by
  induction ops using List.reverseRecOn with
  | nil => exact hinit
  | append_singleton ops a ih =>
    rw [trace_concat, final_concat]
    exact hstep _ _ a ih

/-- An entry of a history is a call from the state the calls before it reach. -/
theorem trace_split {s : σ} {ops : List α} {e : Entry σ α ρ} {pre post : List (Entry σ α ρ)}
    (h : trace step s ops = pre ++ e :: post) :
    ∃ xs ys, ops = xs ++ e.op :: ys ∧ pre = trace step s xs ∧
      e = entry step (final step s xs) e.op ∧ post = trace step e.after ys := by
  induction pre generalizing s ops with
  | nil =>
    cases ops with
    | nil => cases h
    | cons a ops =>
      obtain ⟨rfl, rfl⟩ := List.cons.inj h
      exact ⟨[], ops, rfl, rfl, rfl, rfl⟩
  | cons p pre ih =>
    cases ops with
    | nil => cases h
    | cons a ops =>
      obtain ⟨rfl, htail⟩ := List.cons.inj h
      obtain ⟨xs, ys, rfl, rfl, he, hpost⟩ := ih htail
      exact ⟨a :: xs, ys, rfl, rfl, he, hpost⟩

theorem trace_mem {s : σ} {ops : List α} {e : Entry σ α ρ} (he : e ∈ trace step s ops) :
    ∃ xs ys, ops = xs ++ e.op :: ys ∧ e = entry step (final step s xs) e.op := by
  obtain ⟨pre, post, h⟩ := List.append_of_mem he
  obtain ⟨xs, ys, hops, -, hentry, -⟩ := trace_split h
  exact ⟨xs, ys, hops, hentry⟩

/-- Every call of a run has an entry. -/
theorem trace_ops (step : σ → α → ρ × σ) (s : σ) {ops : List α} {a : α} (ha : a ∈ ops) :
    ∃ e ∈ trace step s ops, e.op = a := by
  induction ops generalizing s with
  | nil => exact absurd ha List.not_mem_nil
  | cons b ops ih =>
    rcases List.mem_cons.mp ha with rfl | ha
    · exact ⟨_, List.mem_cons_self, rfl⟩
    · obtain ⟨e, he, hop⟩ := ih (step s b).2 ha
      exact ⟨e, List.mem_cons_of_mem _ he, hop⟩

/-- The calls of a history are those it was made of. -/
theorem trace_map_op (step : σ → α → ρ × σ) (s : σ) (ops : List α) :
    (trace step s ops).map Entry.op = ops := by
  induction ops generalizing s with
  | nil => rfl
  | cons a ops ih => exact congrArg (List.cons a) (ih (step s a).2)

/-- Every entry of a history starts in a state that meets the invariant. -/
theorem trace_before {I : σ → Prop} (hstep : ∀ s a, I s → I (step s a).2) {s : σ} (hs : I s)
    {ops : List α} {e : Entry σ α ρ} (he : e ∈ trace step s ops) :
    I e.before ∧ e = entry step e.before e.op := by
  obtain ⟨xs, ys, -, hentry⟩ := trace_mem he
  have hbefore : e.before = final step s xs := by rw [hentry]; rfl
  refine ⟨by rw [hbefore]; exact run_invariant_all hstep s hs xs, ?_⟩
  rw [hbefore]; exact hentry

/-- **Two calls of one run.**  The later one starts where the calls between them lead. -/
theorem trace_pair {s : σ} {ops : List α} {e e' : Entry σ α ρ} {pre mid post : List (Entry σ α ρ)}
    (h : trace step s ops = pre ++ e :: (mid ++ e' :: post)) :
    ∃ xs ys, e = entry step (final step s xs) e.op ∧ mid = trace step e.after ys ∧
      e' = entry step (final step e.after ys) e'.op := by
  obtain ⟨xs, rest, -, -, he, hpost⟩ := trace_split h
  obtain ⟨ys, -, -, hmid, he', -⟩ := trace_split hpost.symm
  exact ⟨xs, ys, he, hmid, he'⟩

/-- What every call keeps holds from any state of a run to any later one. -/
theorem final_rel {R : σ → σ → Prop} (hrefl : ∀ s, R s s) (htrans : ∀ a b c, R a b → R b c → R a c)
    (hstep : ∀ s a, R s (step s a).2) (s : σ) (ops : List α) : R s (final step s ops) := by
  induction ops generalizing s with
  | nil => exact hrefl s
  | cons a ops ih => exact htrans _ _ _ (hstep s a) (ih _)

end Machine

end Aegis
