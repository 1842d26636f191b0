/-
  WHAT THE WORKFLOWS SHARE: their exceptions, the replies of their activities and failure codes.

  An activity that fails reaches its workflow as an `ActivityError`, whose cause is an
  `ApplicationError` of some type or something else (a timeout, a lost worker).  A workflow raises
  `ApplicationError` itself, and a model it builds from bad data raises a `ValidationError`, which no
  workflow here catches.
-/
import Mathlib
import Aegis.Lib.Workflow
import Aegis.Domain

namespace Aegis

namespace Temporal

open Workflow

/-- An exception inside a workflow.  `cause` is the type of the application error behind an
    `ActivityError`, when there is one. -/
inductive Failure where
  | activityError (cause : Option Identifier)
  | applicationError (type : Identifier)
  | other (error : Error)
deriving DecidableEq

/-- What an activity comes back with. -/
abbrev Reply (α : Type) : Type := Except (Option Identifier) α

/-! ## Awaiting an activity -/

section Activity

variable {Signal Call α φ ω : Type}

/-- The state after a reply. -/
def replied (s : Progress Call (Reply α) φ ω) (call : Call) (reply : Reply α) (fields : φ) (w : ω) :
    Progress Call (Reply α) φ ω :=
  { fields, world := w, invocations := s.invocations ++ [⟨call, reply, fields⟩] }

variable {s : Progress Call (Reply α) φ ω} {call : Call} {reply : Reply α} {fields : φ} {w : ω}

@[simp] theorem replied_fields : (replied s call reply fields w).fields = fields := rfl

@[simp] theorem replied_world : (replied s call reply fields w).world = w := rfl

@[simp] theorem replied_invocations : (replied s call reply fields w).invocations =
    s.invocations ++ [⟨call, reply, fields⟩] := rfl

/-- `await workflow.execute_activity(...)`. -/
def activity (handle : φ → Signal → φ) (world : World Signal Call (Reply α) ω) (call : Call) :
    Exec Failure (Progress Call (Reply α) φ ω) α := do
  match ← invoke handle world call with
  | .ok a => pure a
  | .error cause => Exec.raise (.activityError cause)

/-- An activity returns or raises an `ActivityError`; either way it has been called. -/
theorem sat_activity {handle : φ → Signal → φ} {world : World Signal Call (Reply α) ω}
    {Q : α → Progress Call (Reply α) φ ω → Prop} {R : Failure → Progress Call (Reply α) φ ω → Prop}
    (hok : ∀ signals a w, world.activity call s.world = ((signals, .ok a), w) →
      Q a (replied s call (.ok a) (handleAll handle s.fields signals) w))
    (herror : ∀ signals cause w, world.activity call s.world = ((signals, .error cause), w) →
      R (.activityError cause)
        (replied s call (.error cause) (handleAll handle s.fields signals) w)) :
    Exec.Sat (activity handle world call) s Q R := by
  unfold activity
  rw [Exec.sat_bind]
  refine sat_invoke (fun signals reply w hworld => ?_)
  cases reply with
  | ok a => exact hok signals a w hworld
  | error cause => exact herror signals cause w hworld

/-! ## Invariants -/

/-- `I` survives every wait and each of these calls, whatever it comes back with. -/
structure Kept (I : Progress Call (Reply α) φ ω → Prop) (calls : Call → Prop) : Prop where
  called : ∀ call, calls call → ∀ s reply fields w, I s → I (replied s call reply fields w)
  waited : ∀ (s : Progress Call (Reply α) φ ω) (fields : φ) (w : ω), I s →
    I { s with fields, world := w }

variable {I : Progress Call (Reply α) φ ω → Prop} {calls more : Call → Prop}

theorem Kept.mono (h : Kept I more) (hsub : ∀ call, calls call → more call) : Kept I calls where
  called := fun call hcall => h.called call (hsub call hcall)
  waited := h.waited

/-- Something true of every call made so far, and of any of these calls. -/
theorem kept_calls {P : Invocation Call (Reply α) φ → Prop}
    (h : ∀ call, calls call → ∀ reply fields, P ⟨call, reply, fields⟩) :
    Kept (fun s : Progress Call (Reply α) φ ω => ∀ e ∈ s.invocations, P e) calls where
  called := by
    intro call hcall s reply fields w hs e he
    rw [replied_invocations, List.mem_append, List.mem_singleton] at he
    rcases he with he | rfl
    · exact hs e he
    · exact h call hcall reply fields
  waited := fun _ _ _ hs => hs

theorem activity_keeps {handle : φ → Signal → φ} {world : World Signal Call (Reply α) ω}
    (h : Kept I calls) (hcall : calls call) (hs : I s) :
    Exec.Sat (activity handle world call) s (fun _ => I) (fun _ => I) := by
  refine sat_activity ?_ ?_
  · intro signals a w _
    exact h.called call hcall s _ _ _ hs
  · intro signals cause w _
    exact h.called call hcall s _ _ _ hs

end Activity

/-! ## Failure codes -/

/-- `"".join(c.lower() if c.isalnum() else "_" for c in value).strip("_")`. -/
def normalized (value : List Char) : List Char :=
  (((value.map fun c => if c.isAlphanum = true then c.toLower else '_').dropWhile
    (· == '_')).reverse.dropWhile (· == '_')).reverse

theorem isAlphanum_toLower {c : Char} (h : c.isAlphanum = true) : c.toLower.isAlphanum = true := by
  have hsmall : c.toNat < 128 := by
    simp only [Char.isAlphanum, Char.isAlpha, Char.isUpper, Char.isLower, Char.isDigit,
      Bool.or_eq_true, Bool.and_eq_true, decide_eq_true_eq, UInt32.le_iff_toNat_le, ge_iff_le] at h
    have hval : c.toNat = c.val.toNat := rfl
    have hZ : 'Z'.val.toNat = 90 := rfl
    have hz : 'z'.val.toNat = 122 := rfl
    have h9 : '9'.val.toNat = 57 := rfl
    omega
  have hall : ∀ n < 128, (Char.ofNat n).isAlphanum = true →
      (Char.ofNat n).toLower.isAlphanum = true := by decide
  have hc := hall c.toNat hsmall
  rw [Char.ofNat_toNat] at hc
  exact hc h

theorem identifierChar_normalized {value : List Char} {c : Char} (h : c ∈ normalized value) :
    identifierChar c = true := by
  have hmem : c ∈ value.map fun c => if c.isAlphanum = true then c.toLower else '_' := by
    have hstripped := List.mem_reverse.mp h
    exact (List.dropWhile_sublist _).mem
      (List.mem_reverse.mp ((List.dropWhile_sublist _).mem hstripped))
  obtain ⟨d, -, rfl⟩ := List.mem_map.mp hmem
  by_cases hd : d.isAlphanum = true
  · rw [if_pos hd]
    simp only [identifierChar, isAlphanum_toLower hd, Bool.true_or]
  · rw [if_neg hd]; decide

theorem isIdentifier_normalized {value : List Char} {bound : Nat} (hbound : bound ≤ 128)
    (hne : (normalized value).take bound ≠ []) :
    isIdentifier (String.ofList ((normalized value).take bound)) = true := by
  simp only [isIdentifier, isReference, String.toList_ofList, Bool.and_eq_true, decide_eq_true_eq]
  refine ⟨⟨List.length_pos_iff.mpr hne, le_trans (List.length_take_le _ _) hbound⟩, ?_⟩
  refine List.all_eq_true.mpr (fun c hc => ?_)
  exact identifierChar_normalized (List.mem_of_mem_take hc)

/-- A quarter of an hour is an admitted time for a reconciliation. -/
theorem quarter_hour : 30 ≤ 900 ∧ 900 ≤ 86400 := by decide

/-- `normalized[:bound] or fallback`.  The type of an application error is a class name, which is an
    identifier. -/
def safeCode (bound : Nat) (fallback value : Identifier) (hbound : bound ≤ 128 := by decide) :
    Identifier :=
  if hempty : (normalized value.val.toList).take bound = [] then fallback
  else ⟨String.ofList ((normalized value.val.toList).take bound),
    isIdentifier_normalized hbound hempty⟩

end Temporal

end Aegis
