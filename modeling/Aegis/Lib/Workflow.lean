/-
  WORKFLOWS: bodies that wait for activities, signals and timers.

  A workflow has FIELDS `φ`, which only its own code and its signal handlers change, and sees the rest
  of the world at its awaits alone.  A `World` says what happens there: while an activity runs, signals
  arrive and the activity comes back with a reply; while a timer runs, signals arrive until it fires.
  The world has a state of its own and is deterministic in it, so "for every world, from every state"
  is every order of signals, every reply and every timeout.

  Signals are handled before the awaited thing is handed over, and a condition is looked at once they
  are.  `invocations` keeps every activity a run has called, with the fields the workflow had when the
  reply came: "was called before the workflow returned" is membership in it.
-/
import Mathlib
import Aegis.Lib.Exec

namespace Aegis

namespace Workflow

variable {Signal Call Reply φ ω ε : Type}

/-- What happens outside a workflow while it waits. -/
structure World (Signal Call Reply ω : Type) where
  activity : Call → ω → (List Signal × Reply) × ω
  timer : Nat → ω → List Signal × ω

/-- One activity of a run: the call, what it came back with, and the workflow's fields then. -/
structure Invocation (Call Reply φ : Type) where
  call : Call
  reply : Reply
  fields : φ

/-- A workflow and its world between two steps. -/
structure Progress (Call Reply φ ω : Type) where
  fields : φ
  world : ω
  invocations : List (Invocation Call Reply φ)

/-- A workflow that has not begun. -/
def Progress.start (fields : φ) (world : ω) : Progress Call Reply φ ω := ⟨fields, world, []⟩

variable (handle : φ → Signal → φ) (world : World Signal Call Reply ω)

/-- The fields after the signals. -/
def handleAll (fields : φ) (signals : List Signal) : φ := signals.foldl handle fields

/-- `await workflow.execute_activity(call)`, with an `ActivityError` as a reply like any other. -/
def invoke (call : Call) : Exec ε (Progress Call Reply φ ω) Reply := fun s =>
  let answered := world.activity call s.world
  let fields := handleAll handle s.fields answered.1.1
  (.ok answered.1.2,
    { fields, world := answered.2,
      invocations := s.invocations ++ [⟨call, answered.1.2, fields⟩] })

/-- `await workflow.wait_condition(condition, timeout)`: whether the condition came true in time. -/
def waitCondition (condition : φ → Bool) (timeout : Nat) :
    Exec ε (Progress Call Reply φ ω) Bool := fun s =>
  let arrived := world.timer timeout s.world
  let fields := handleAll handle s.fields arrived.1
  (.ok (condition fields), { s with fields, world := arrived.2 })

/-- `self.field = ...`. -/
def assign (f : φ → φ) : Exec ε (Progress Call Reply φ ω) Unit :=
  Exec.modify fun s => { s with fields := f s.fields }

variable {handle world}

/-! ## Rules -/

/-- What every handler keeps, any number of signals keep. -/
theorem handleAll_keeps {I : φ → Prop} (hkeep : ∀ fields signal, I fields → I (handle fields signal))
    {fields : φ} (h : I fields) (signals : List Signal) : I (handleAll handle fields signals) := by
  induction signals generalizing fields with
  | nil => exact h
  | cons signal signals ih => exact ih (hkeep fields signal h)

theorem handleAll_append (fields : φ) (xs ys : List Signal) :
    handleAll handle fields (xs ++ ys) = handleAll handle (handleAll handle fields xs) ys := by
  unfold handleAll
  exact List.foldl_append

/-- The state an activity leaves: any signals and any reply. -/
theorem sat_invoke {call : Call} {s : Progress Call Reply φ ω}
    {Q : Reply → Progress Call Reply φ ω → Prop} {R : ε → Progress Call Reply φ ω → Prop}
    (h : ∀ signals reply w, world.activity call s.world = ((signals, reply), w) →
      Q reply { fields := handleAll handle s.fields signals, world := w,
                invocations := s.invocations ++
                  [⟨call, reply, handleAll handle s.fields signals⟩] }) :
    Exec.Sat (invoke handle world call) s Q R := h _ _ _ rfl

/-- The state a wait leaves, whether the condition came true or the timer fired. -/
theorem sat_waitCondition {condition : φ → Bool} {timeout : Nat} {s : Progress Call Reply φ ω}
    {Q : Bool → Progress Call Reply φ ω → Prop} {R : ε → Progress Call Reply φ ω → Prop}
    (h : ∀ signals w, world.timer timeout s.world = (signals, w) →
      Q (condition (handleAll handle s.fields signals))
        { s with fields := handleAll handle s.fields signals, world := w }) :
    Exec.Sat (waitCondition handle world condition timeout) s Q R := h _ _ rfl

/-! ## Histories -/

/-- The one element of a list that meets `p` splits it in one way. -/
theorem split_unique {α : Type} {p : α → Prop} {pre tail pre' tail' : List α} {e e' : α}
    (hpre : ∀ x ∈ pre, ¬p x) (htail : ∀ x ∈ tail, ¬p x) (he' : p e')
    (h : pre ++ e :: tail = pre' ++ e' :: tail') : e' = e ∧ tail' = tail := by
  induction pre generalizing pre' with
  | nil =>
    cases pre' with
    | nil =>
      obtain ⟨rfl, rfl⟩ := List.cons.inj h
      exact ⟨rfl, rfl⟩
    | cons x pre' =>
      have hmem : e' ∈ tail := by
        rw [(List.cons.inj h).2]; exact List.mem_append_right _ List.mem_cons_self
      exact absurd he' (htail e' hmem)
  | cons y pre ih =>
    cases pre' with
    | nil =>
      have hy : y = e' := (List.cons.inj h).1
      exact absurd (hy ▸ he') (hpre y List.mem_cons_self)
    | cons x pre' =>
      exact ih (fun z hz => hpre z (List.mem_cons_of_mem _ hz)) (List.cons.inj h).2

/-! ## Scripts -/

/-- One await of a scripted world: the signals that arrive and the reply, if it is an activity. -/
structure Turn (Signal Reply : Type) where
  signals : List Signal
  reply : Reply

/-- The world that follows a list of turns; `idle` is every turn after it. -/
def World.scripted (idle : Turn Signal Reply) :
    World Signal Call Reply (List (Turn Signal Reply)) where
  activity := fun _ turns =>
    (((turns.head?.getD idle).signals, (turns.head?.getD idle).reply), turns.tail)
  timer := fun _ turns => ((turns.head?.getD idle).signals, turns.tail)

end Workflow

end Aegis
