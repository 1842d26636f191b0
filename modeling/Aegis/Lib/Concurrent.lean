/-
  THREADS OVER ONE STATE.

  A pool runs calls at the same time: each is a program in steps, and a MOVE starts a call, lets one
  thread take its next step, or stops a thread for good.  A run is a list of moves, so it is any
  interleaving; its steps are the EVENTS of the run.

  What a thread may do is said by PHASES: `Follows ok fin p φ` -- from the phase `φ` the program `p` goes
  from step to step along `ok` and stops only in a phase that meets `fin`.  It is proved per program, by
  the rules of its combinators.  `Kept.run` then reasons about phases alone: what one step of one phase
  keeps, every run keeps.  `Chronicled.run` is the same with the steps so far in view.
-/
import Mathlib
import Aegis.Lib.Steps

namespace Aegis

namespace Threads

open Steps

variable {κ ℓ ε σ α β φ : Type}

/-! ## Phases of one program -/

/-- From the phase the program goes along `ok`, and it stops in phases that meet `fin`. -/
def Follows (ok : φ → ℓ → σ → σ → φ → Prop) (fin : Except ε α → φ → Prop) :
    Steps ℓ ε σ α → φ → Prop
  | .done r, phase => fin r phase
  | .step label write next, phase =>
    ∀ s, ∃ phase', ok phase label s (write s) phase' ∧ Follows ok fin (next s) phase'

variable {ok : φ → ℓ → σ → σ → φ → Prop} {fin fin' : Except ε α → φ → Prop}
  {last : Except ε β → φ → Prop} {p : Steps ℓ ε σ α} {f : α → Steps ℓ ε σ β} {phase : φ}

theorem Follows.bind (h : Follows ok fin p phase)
    (hfail : ∀ e phase, fin (.error e) phase → last (.error e) phase)
    (hnext : ∀ a phase, fin (.ok a) phase → Follows ok last (f a) phase) :
    Follows ok last (p >>= f) phase := by
  show Follows ok last (andThen p f) phase
  induction p generalizing phase with
  | done r =>
    cases r with
    | ok a => exact hnext a phase h
    | error e => exact hfail e phase h
  | step label write next ih =>
    intro s
    obtain ⟨phase', hok, hrest⟩ := h s
    exact ⟨phase', hok, ih s hrest⟩

/-- One step at the head of a program. -/
theorem Follows.atom {label : ℓ} {x : Exec ε σ α}
    (h : ∀ s, Exec.Sat x s
      (fun a s' => ∃ phase', ok phase label s s' phase' ∧ Follows ok last (f a) phase')
      (fun e s' => ∃ phase', ok phase label s s' phase' ∧ last (.error e) phase')) :
    Follows ok last (atom label x >>= f) phase := by
  intro s
  exact (h s).outcome (P := fun r s' => ∃ phase', ok phase label s s' phase' ∧
    Follows ok last (andThen (.done r) f) phase')

/-- One step that is the whole program. -/
theorem follows_atom {label : ℓ} {x : Exec ε σ α}
    (h : ∀ s, Exec.Sat x s (fun a s' => ∃ phase', ok phase label s s' phase' ∧ fin (.ok a) phase')
      (fun e s' => ∃ phase', ok phase label s s' phase' ∧ fin (.error e) phase')) :
    Follows ok fin (Steps.atom label x) phase := by
  intro s
  exact (h s).outcome (P := fun r s' => ∃ phase', ok phase label s s' phase' ∧ fin r phase')

theorem Follows.check {c : Prop} [Decidable c] {e : ε} {f : Unit → Steps ℓ ε σ β}
    (hfail : ¬c → last (.error e) phase) (h : c → Follows ok last (f ()) phase) :
    Follows ok last (Steps.require c e >>= f) phase := by
  show Follows ok last (andThen (Steps.require c e) f) phase
  unfold Steps.require
  by_cases hc : c
  · rw [if_pos hc]
    exact h hc
  · rw [if_neg hc]
    exact hfail hc

theorem Follows.attempt {r : Except ε α} (hfail : ∀ e, r = .error e → last (.error e) phase)
    (h : ∀ a, r = .ok a → Follows ok last (f a) phase) :
    Follows ok last (Steps.done r >>= f) phase := by
  cases r with
  | ok a => exact h a rfl
  | error e => exact hfail e rfl

/-! ## Pools -/

/-- A call in progress, or one that has ended. -/
structure Thread (κ ℓ ε σ α : Type) where
  call : κ
  rest : Steps ℓ ε σ α

structure Pool (κ ℓ ε σ α : Type) where
  shared : σ
  threads : Nat → Option (Thread κ ℓ ε σ α)

/-- A pool in which no call has begun. -/
def Pool.start (s : σ) : Pool κ ℓ ε σ α := ⟨s, fun _ => none⟩

/-- The thread has a step left. -/
def Thread.Running (t : Thread κ ℓ ε σ α) : Prop := ∀ r, t.rest ≠ .done r

/-- No call is in progress. -/
def Pool.Quiet (pool : Pool κ ℓ ε σ α) : Prop := ∀ i t, pool.threads i = some t → ¬t.Running

inductive Move (κ : Type) where
  | start (i : Nat) (call : κ)
  | turn (i : Nat)
  | crash (i : Nat)

/-- One step of a run: who took it, for which call, and the states around it. -/
structure Event (κ ℓ σ : Type) where
  thread : Nat
  call : κ
  label : ℓ
  before : σ
  after : σ

/-- The step a move takes, if it takes one. -/
def Pool.event (pool : Pool κ ℓ ε σ α) : Move κ → Option (Event κ ℓ σ)
  | .turn i =>
    match pool.threads i with
    | some ⟨call, .step label write _⟩ => some ⟨i, call, label, pool.shared, write pool.shared⟩
    | _ => none
  | _ => none

/-- One move.  A thread number is used once; a turn of a thread that has ended does nothing. -/
def Pool.move (body : κ → Steps ℓ ε σ α) (pool : Pool κ ℓ ε σ α) : Move κ → Pool κ ℓ ε σ α
  | .start i call =>
    match pool.threads i with
    | none => { pool with threads := Function.update pool.threads i (some ⟨call, body call⟩) }
    | some _ => pool
  | .turn i =>
    match pool.threads i with
    | some ⟨call, .step _ write next⟩ =>
      { shared := write pool.shared
        threads := Function.update pool.threads i (some ⟨call, next pool.shared⟩) }
    | _ => pool
  | .crash i => { pool with threads := Function.update pool.threads i none }

/-- The pool after a list of moves. -/
def Pool.run (body : κ → Steps ℓ ε σ α) (pool : Pool κ ℓ ε σ α) (moves : List (Move κ)) :
    Pool κ ℓ ε σ α := moves.foldl (Pool.move body) pool

/-- The steps of a list of moves. -/
def Pool.events (body : κ → Steps ℓ ε σ α) (pool : Pool κ ℓ ε σ α) : List (Move κ) →
    List (Event κ ℓ σ)
  | [] => []
  | m :: moves => (pool.event m).toList ++ Pool.events body (pool.move body m) moves

/-- A thread that nobody starts is not there. -/
theorem Pool.run_none {body : κ → Steps ℓ ε σ α} {i : Nat} (moves : List (Move κ))
    (hmoves : ∀ call, Move.start i call ∉ moves) {pool : Pool κ ℓ ε σ α} (hi : pool.threads i = none) :
    (pool.run body moves).threads i = none := by
  induction moves generalizing pool with
  | nil => exact hi
  | cons m moves ih =>
    refine ih (fun call hmem => hmoves call (List.mem_cons_of_mem _ hmem)) ?_
    cases m with
    | start j call =>
      have hij : i ≠ j := by
        rintro rfl
        exact hmoves call List.mem_cons_self
      simp only [Pool.move]
      split
      · exact (Function.update_of_ne hij ..).trans hi
      · exact hi
    | turn j =>
      simp only [Pool.move]
      split
      · rename_i hj
        have hij : i ≠ j := by
          rintro rfl
          rw [hi] at hj
          cases hj
        exact (Function.update_of_ne hij ..).trans hi
      · exact hi
    | crash j =>
      show Function.update pool.threads j none i = none
      rw [Function.update_apply, hi, ite_self]

/-- No thread of this number has a step left. -/
def Pool.ended (pool : Pool κ ℓ ε σ α) (i : Nat) : Bool :=
  match pool.threads i with
  | some ⟨_, .step _ _ _⟩ => false
  | _ => true

/-- A pool is quiet when the threads that were started have ended. -/
theorem Pool.quiet_of_ended {body : κ → Steps ℓ ε σ α} {moves : List (Move κ)} {s : σ} (n : Nat)
    (hstarts : ∀ i call, Move.start i call ∈ moves → i < n)
    (hended : ∀ i < n, ((Pool.start s).run body moves).ended i = true) :
    ((Pool.start s).run body moves).Quiet := by
  intro i t ht hrunning
  by_cases hin : i < n
  · have hend := hended i hin
    unfold Pool.ended at hend
    rw [ht] at hend
    obtain ⟨call, rest⟩ := t
    cases rest with
    | done r => exact hrunning r rfl
    | step label write next => cases hend
  · have hnone : ((Pool.start s).run body moves).threads i = none :=
      Pool.run_none moves (fun call hmem => hin (hstarts i call hmem)) rfl
    rw [hnone] at ht
    cases ht

/-- The steps of some moves, then those of the others in the pool after them. -/
theorem Pool.events_append (body : κ → Steps ℓ ε σ α) (pool : Pool κ ℓ ε σ α) (xs ys : List (Move κ)) :
    pool.events body (xs ++ ys) = pool.events body xs ++ (pool.run body xs).events body ys := by
  induction xs generalizing pool with
  | nil => rfl
  | cons m xs ih =>
    show (pool.event m).toList ++ (pool.move body m).events body (xs ++ ys) = _
    rw [ih, ← List.append_assoc]
    rfl

/-! ## Reasoning about phases -/

/-- A place in a history with one more step is in the history, or it is that step. -/
theorem append_split {β : Type} {xs before after : List β} {x y : β}
    (h : xs ++ [x] = before ++ y :: after) :
    (xs = before ∧ x = y) ∨ ∃ after', xs = before ++ y :: after' := by
  rcases List.eq_nil_or_concat after with rfl | ⟨after', z, rfl⟩
  · obtain ⟨hxs, hx⟩ := List.append_inj' h rfl
    exact .inl ⟨hxs, List.cons.inj hx |>.1⟩
  · have hsplit : xs ++ [x] = (before ++ y :: after') ++ [z] := by
      rw [h, List.append_assoc, List.cons_append, List.concat_eq_append]
    exact .inr ⟨after', (List.append_inj' hsplit rfl).1⟩

/-- Each thread is in its phase, and there is a phase only where there is a thread. -/
def Phased (ok : φ → ℓ → σ → σ → φ → Prop) (fin : Except ε α → φ → Prop) (pool : Pool κ ℓ ε σ α)
    (phases : Nat → Option (κ × φ)) : Prop :=
  ∀ i, match pool.threads i with
    | none => phases i = none
    | some t => ∃ phase, phases i = some (t.call, phase) ∧ Follows ok fin t.rest phase

theorem Phased.update {pool : Pool κ ℓ ε σ α} {phases : Nat → Option (κ × φ)}
    (h : Phased ok fin pool phases) (i : Nat) {t : Thread κ ℓ ε σ α} {phase : φ}
    (ht : Follows ok fin t.rest phase) (s : σ) :
    Phased ok fin ⟨s, Function.update pool.threads i (some t)⟩
      (Function.update phases i (some (t.call, phase))) := by
  intro j
  by_cases hj : j = i
  · subst hj
    simp only [Function.update_self]
    exact ⟨phase, rfl, ht⟩
  · simp only [Function.update_of_ne hj]
    exact h j

theorem Phased.crash {pool : Pool κ ℓ ε σ α} {phases : Nat → Option (κ × φ)}
    (h : Phased ok fin pool phases) (i : Nat) :
    Phased ok fin ⟨pool.shared, Function.update pool.threads i none⟩
      (Function.update phases i none) := by
  intro j
  by_cases hj : j = i
  · subst hj
    simp only [Function.update_self]
  · simp only [Function.update_of_ne hj]
    exact h j

/-- What a run of allowed moves and good steps keeps: `J` of its steps so far, the shared state and the
    phases.  Whether a step is a good one may depend on the phases of the other threads. -/
structure Watched (ok : φ → ℓ → σ → σ → φ → Prop) (init : κ → φ) (Allowed : Move κ → Prop)
    (Good : List (Event κ ℓ σ) → (Nat → Option (κ × φ)) → Event κ ℓ σ → Prop)
    (J : List (Event κ ℓ σ) → σ → (Nat → Option (κ × φ)) → Prop) : Prop where
  start : ∀ h s phases i call, Allowed (.start i call) → J h s phases → phases i = none →
    J h s (Function.update phases i (some (call, init call)))
  turn : ∀ h s phases i call phase label s' phase', J h s phases → phases i = some (call, phase) →
    ok phase label s s' phase' → Good h phases ⟨i, call, label, s, s'⟩ →
    J (h ++ [⟨i, call, label, s, s'⟩]) s' (Function.update phases i (some (call, phase')))
  crash : ∀ h s phases i, Allowed (.crash i) → J h s phases → J h s (Function.update phases i none)

section Watch

variable {body : κ → Steps ℓ ε σ α} {init : κ → φ} {Allowed : Move κ → Prop}
  {Good : List (Event κ ℓ σ) → (Nat → Option (κ × φ)) → Event κ ℓ σ → Prop}
  {J : List (Event κ ℓ σ) → σ → (Nat → Option (κ × φ)) → Prop}

/-- One move keeps `J`, if its step is a good one. -/
theorem Watched.move (hbody : ∀ call, Follows ok fin (body call) (init call))
    (hkept : Watched ok init Allowed Good J) {h : List (Event κ ℓ σ)} {pool : Pool κ ℓ ε σ α}
    {phases : Nat → Option (κ × φ)} (hphased : Phased ok fin pool phases) (hJ : J h pool.shared phases)
    {m : Move κ} (hm : Allowed m) (hgood : ∀ e, pool.event m = some e → Good h phases e) :
    ∃ phases', Phased ok fin (pool.move body m) phases' ∧
      J (h ++ (pool.event m).toList) (pool.move body m).shared phases' := by
  have hidle : pool.event m = none → pool.move body m = pool → ∃ phases',
      Phased ok fin (pool.move body m) phases' ∧
        J (h ++ (pool.event m).toList) (pool.move body m).shared phases' := by
    intro hevent hsame
    rw [hevent, hsame, Option.toList_none, List.append_nil]
    exact ⟨phases, hphased, hJ⟩
  cases m with
  | start i call =>
    cases hi : pool.threads i with
    | some t => exact hidle rfl (by simp only [Pool.move, hi])
    | none =>
      have hnone : phases i = none := by
        have hat := hphased i
        rw [hi] at hat
        exact hat
      refine ⟨Function.update phases i (some (call, init call)), ?_⟩
      simp only [Pool.move, Pool.event, hi, Option.toList_none, List.append_nil]
      exact ⟨hphased.update i (t := ⟨call, body call⟩) (hbody call) pool.shared,
        hkept.start h _ _ i call hm hJ hnone⟩
  | turn i =>
    rcases hi : pool.threads i with _ | ⟨call, rest⟩
    · exact hidle (by simp only [Pool.event, hi]) (by simp only [Pool.move, hi])
    · cases rest with
      | done r => exact hidle (by simp only [Pool.event, hi]) (by simp only [Pool.move, hi])
      | step label write next =>
        have hat := hphased i
        rw [hi] at hat
        obtain ⟨phase, hphase, hfollows⟩ := hat
        obtain ⟨phase', hok, hnext⟩ := hfollows pool.shared
        have hevent : Good h phases ⟨i, call, label, pool.shared, write pool.shared⟩ :=
          hgood _ (by simp only [Pool.event, hi])
        refine ⟨Function.update phases i (some (call, phase')), ?_⟩
        simp only [Pool.move, Pool.event, hi, Option.toList_some]
        exact ⟨hphased.update i (t := ⟨call, next pool.shared⟩) hnext (write pool.shared),
          hkept.turn h _ _ i call phase label _ phase' hJ hphase hok hevent⟩
  | crash i =>
    refine ⟨_, hphased.crash i, ?_⟩
    show J (h ++ []) pool.shared _
    rw [List.append_nil]
    exact hkept.crash h _ _ i hm hJ

theorem Pool.events_cons (pool : Pool κ ℓ ε σ α) (m : Move κ) (moves : List (Move κ)) :
    pool.events body (m :: moves) = (pool.event m).toList ++ (pool.move body m).events body moves := rfl

/-- **Watch rule.**  `J` ties the steps of a run to its state, if every step is a good one in the pool it
    is taken in. -/
theorem Watched.run (hbody : ∀ call, Follows ok fin (body call) (init call))
    (hkept : Watched ok init Allowed Good J) (moves : List (Move κ)) :
    ∀ {h : List (Event κ ℓ σ)} {pool : Pool κ ℓ ε σ α} {phases : Nat → Option (κ × φ)},
      Phased ok fin pool phases → J h pool.shared phases → (∀ m ∈ moves, Allowed m) →
      (∀ before m after e, moves = before ++ m :: after → (pool.run body before).event m = some e →
        ∀ phases, Phased ok fin (pool.run body before) phases →
          Good (h ++ pool.events body before) phases e) →
      ∃ phases', Phased ok fin (pool.run body moves) phases' ∧
        J (h ++ pool.events body moves) (pool.run body moves).shared phases' := by
  induction moves with
  | nil =>
    intro h pool phases hphased hJ _ _
    show ∃ phases', Phased ok fin pool phases' ∧ J (h ++ []) pool.shared phases'
    rw [List.append_nil]
    exact ⟨_, hphased, hJ⟩
  | cons m moves ih =>
    intro h pool phases hphased hJ hallowed hgood
    have hhead : ∀ e, pool.event m = some e → Good h phases e := by
      intro e he
      have hfirst := hgood [] m moves e rfl he phases hphased
      rwa [show h ++ pool.events body [] = h from List.append_nil h] at hfirst
    obtain ⟨phases', hphased', hJ'⟩ := hkept.move hbody hphased hJ
      (hallowed m List.mem_cons_self) hhead
    have hrest := ih hphased' hJ' (fun m' hm' => hallowed m' (List.mem_cons_of_mem _ hm')) (by
      intro before m' after e hmoves he phases₁ hphased₁
      rw [List.append_assoc]
      exact hgood (m :: before) m' after e (by rw [hmoves]; rfl) he phases₁ hphased₁)
    rwa [List.append_assoc] at hrest

end Watch

/-- What a run of allowed moves and good steps keeps, where a step is good by the steps before it. -/
structure Chronicled (ok : φ → ℓ → σ → σ → φ → Prop) (init : κ → φ) (Allowed : Move κ → Prop)
    (Good : List (Event κ ℓ σ) → Event κ ℓ σ → Prop)
    (J : List (Event κ ℓ σ) → σ → (Nat → Option (κ × φ)) → Prop) : Prop where
  start : ∀ h s phases i call, Allowed (.start i call) → J h s phases → phases i = none →
    J h s (Function.update phases i (some (call, init call)))
  turn : ∀ h s phases i call phase label s' phase', J h s phases → phases i = some (call, phase) →
    ok phase label s s' phase' → Good h ⟨i, call, label, s, s'⟩ →
    J (h ++ [⟨i, call, label, s, s'⟩]) s' (Function.update phases i (some (call, phase')))
  crash : ∀ h s phases i, Allowed (.crash i) → J h s phases → J h s (Function.update phases i none)

section Chronicle

variable {body : κ → Steps ℓ ε σ α} {init : κ → φ} {Allowed : Move κ → Prop}
  {Good : List (Event κ ℓ σ) → Event κ ℓ σ → Prop}
  {J : List (Event κ ℓ σ) → σ → (Nat → Option (κ × φ)) → Prop}

theorem Chronicled.watched (hkept : Chronicled ok init Allowed Good J) :
    Watched ok init Allowed (fun h _ e => Good h e) J := ⟨hkept.start, hkept.turn, hkept.crash⟩

/-- **History rule.**  `J` ties the steps of a run to its state, if all of them are good after those
    before them. -/
theorem Chronicled.run (hbody : ∀ call, Follows ok fin (body call) (init call))
    (hkept : Chronicled ok init Allowed Good J) (moves : List (Move κ))
    {h : List (Event κ ℓ σ)} {pool : Pool κ ℓ ε σ α} {phases : Nat → Option (κ × φ)}
    (hphased : Phased ok fin pool phases) (hJ : J h pool.shared phases)
    (hallowed : ∀ m ∈ moves, Allowed m)
    (hgood : ∀ pre e post, pool.events body moves = pre ++ e :: post → Good (h ++ pre) e) :
    ∃ phases', Phased ok fin (pool.run body moves) phases' ∧
      J (h ++ pool.events body moves) (pool.run body moves).shared phases' := by
  refine hkept.watched.run hbody moves hphased hJ hallowed fun before m after e hmoves he _ _ => ?_
  refine hgood _ e (((pool.run body before).move body m).events body after) ?_
  rw [hmoves, Pool.events_append, Pool.events_cons, he]
  rfl

end Chronicle

/-- What a run of allowed moves and good steps keeps: `J` of the shared state and the phases. -/
structure Kept (ok : φ → ℓ → σ → σ → φ → Prop) (init : κ → φ) (Allowed : Move κ → Prop)
    (Good : Event κ ℓ σ → Prop) (J : σ → (Nat → Option (κ × φ)) → Prop) : Prop where
  start : ∀ s phases i call, Allowed (.start i call) → J s phases → phases i = none →
    J s (Function.update phases i (some (call, init call)))
  turn : ∀ s phases i call phase label s' phase', J s phases → phases i = some (call, phase) →
    ok phase label s s' phase' → Good ⟨i, call, label, s, s'⟩ →
    J s' (Function.update phases i (some (call, phase')))
  crash : ∀ s phases i, Allowed (.crash i) → J s phases → J s (Function.update phases i none)

variable {body : κ → Steps ℓ ε σ α} {init : κ → φ} {Allowed : Move κ → Prop}
  {Good : Event κ ℓ σ → Prop} {J : σ → (Nat → Option (κ × φ)) → Prop}

/-- **Invariant rule.**  `J` holds after every run all of whose steps are good. -/
theorem Kept.run (hbody : ∀ call, Follows ok fin (body call) (init call))
    (hkept : Kept ok init Allowed Good J) (moves : List (Move κ)) {pool : Pool κ ℓ ε σ α}
    {phases : Nat → Option (κ × φ)} (hphased : Phased ok fin pool phases) (hJ : J pool.shared phases)
    (hallowed : ∀ m ∈ moves, Allowed m) (hgood : ∀ e ∈ pool.events body moves, Good e) :
    ∃ phases', Phased ok fin (pool.run body moves) phases' ∧
      J (pool.run body moves).shared phases' := by
  have hchronicled : Chronicled ok init Allowed (fun _ e => Good e) (fun _ => J) :=
    ⟨fun _ => hkept.start, fun _ => hkept.turn, fun _ => hkept.crash⟩
  refine hchronicled.run hbody moves (h := []) hphased hJ hallowed fun pre e post hevents => ?_
  exact hgood e (by rw [hevents]; simp)

theorem phased_start (s : σ) :
    Phased ok fin (Pool.start s : Pool κ ℓ ε σ α) (fun _ => none) := fun _ => rfl

end Threads

end Aegis
