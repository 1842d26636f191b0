/-
  AN APPLIED EFFECT AND ITS VERIFICATION.

  The workflow looks at the cancel command once more AFTER the effect, before it verifies, and its
  handler of activity errors cancels too.  So an applied effect is verified, and never reported as
  cancelled, exactly when no cancel command is in at that look and no later activity fails while one
  is in and its cancellation goes through (`effect_verified_iff`).

  The walk through the workflow keeps one judgment, `Good`: run to its end, error handler included,
  the stage leaves invocations and a result for which the equivalence holds.  Up to the effect it holds
  because nothing is applied; from the effect on every way out is a short explicit list of calls.
-/
import Mathlib
import Aegis.Temporal.Remediation

namespace Aegis

namespace RemediationTemporal

open Workflow Temporal
open Remediation (literalIdentifier)

/-- The reply is one of the outcomes. -/
def reports (reply : Reply RemediationActivityOutcome) (outcomes : List Outcome) : Prop :=
  match reply with
  | .ok o => o.outcome ∈ outcomes
  | .error _ => False

instance (reply : Reply RemediationActivityOutcome) (outcomes : List Outcome) :
    Decidable (reports reply outcomes) :=
  match reply with
  | .ok o => inferInstanceAs (Decidable (o.outcome ∈ outcomes))
  | .error _ => inferInstanceAs (Decidable False)

/-- The reply is an `ActivityError`. -/
def failed (reply : Reply RemediationActivityOutcome) : Prop :=
  match reply with
  | .ok _ => False
  | .error _ => True

/-- The call by which an effect is known to be applied. -/
def Applied (e : Called) : Prop :=
  (e.call.activity = .execute ∧ reports e.reply [.effectSucceeded]) ∨
    (e.call.activity = .reconcile ∧ reports e.reply [.reconciled])

instance (e : Called) : Decidable (Applied e) :=
  inferInstanceAs (Decidable ((_ ∧ _) ∨ _ ∧ _))

/-- The ends of a run that leaves no effect behind. -/
def effectless : List Status := [.cancelled, .denied, .expired, .revoked]

/-- An applied effect is verified, and the run does not end as if there had been none. -/
def EffectVerified (result : Except Failure RemediationWorkflowResult) (calls : List Called) : Prop :=
  (∃ e ∈ calls, Applied e) → (∃ e ∈ calls, e.call.activity = .verify) ∧
    ∀ r, result = .ok r → r.status ∉ effectless

/-- `e` failed while a cancel command was in, and the call after it went through as a cancellation. -/
def Overtaken (e next : Called) : Prop :=
  failed e.reply ∧ e.fields.cancelCommand ≠ none ∧ reports next.reply [.cancelled, .duplicate]

/-- No cancel command is in when the effect is known to be applied, and none overtakes a later call. -/
def Undisturbed (calls : List Called) : Prop :=
  ∀ pre e tail, calls = pre ++ e :: tail → Applied e →
    e.fields.cancelCommand = none ∧ tail.IsChain fun e next => ¬Overtaken e next

/-! ## Splitting the calls at the effect -/

/-- Where nothing is applied there is nothing to verify and nothing to disturb. -/
theorem verified_of_quiet {calls : List Called} (h : ∀ e ∈ calls, ¬Applied e)
    (result : Except Failure RemediationWorkflowResult) :
    EffectVerified result calls ↔ Undisturbed calls := by
  constructor
  · rintro - pre e tail rfl he
    exact absurd he (h e (List.mem_append_right _ List.mem_cons_self))
  · rintro - ⟨e, he, happlied⟩
    exact absurd happlied (h e he)

/-- Where one call applied the effect, both sides are about the calls after it. -/
theorem verified_of_applied {pre tail : List Called} {e : Called}
    (hpre : ∀ x ∈ pre, ¬Applied x ∧ x.call.activity ≠ .verify) (he : Applied e)
    (htail : ∀ x ∈ tail, ¬Applied x) {result : Except Failure RemediationWorkflowResult}
    (h : ((∃ x ∈ tail, x.call.activity = .verify) ∧
        ∀ r, result = .ok r → r.status ∉ effectless) ↔
      e.fields.cancelCommand = none ∧ tail.IsChain fun e next => ¬Overtaken e next) :
    EffectVerified result (pre ++ e :: tail) ↔ Undisturbed (pre ++ e :: tail) := by
  have hverify : (∃ x ∈ pre ++ e :: tail, x.call.activity = .verify) ↔
      ∃ x ∈ tail, x.call.activity = .verify := by
    constructor
    · rintro ⟨x, hx, hname⟩
      rcases List.mem_append.mp hx with hx | hx
      · exact absurd hname (hpre x hx).2
      · rcases List.mem_cons.mp hx with rfl | hx
        · rcases he with ⟨hexecute, -⟩ | ⟨hreconcile, -⟩
          · rw [hname] at hexecute; cases hexecute
          · rw [hname] at hreconcile; cases hreconcile
        · exact ⟨x, hx, hname⟩
    · rintro ⟨x, hx, hname⟩
      exact ⟨x, List.mem_append_right _ (List.mem_cons_of_mem _ hx), hname⟩
  constructor
  · intro hverified pre' e' tail' hsplit he'
    obtain ⟨rfl, rfl⟩ := split_unique (fun x hx => (hpre x hx).1) htail he' hsplit
    have hboth := hverified ⟨e', List.mem_append_right _ List.mem_cons_self, he⟩
    exact h.mp ⟨hverify.mp hboth.1, hboth.2⟩
  · rintro hquiet -
    have hboth := h.mpr (hquiet pre e tail rfl he)
    exact ⟨hverify.mpr hboth.1, hboth.2⟩

/-! ## Up to the effect -/

section Run

variable {ω : Type} {world : RunWorld ω} {value : RemediationWorkflowInput} {s : RunState ω}

/-- The equivalence, for a run that ended with `result` in `s`. -/
def Fits (result : Except Failure RemediationWorkflowResult) (s : RunState ω) : Prop :=
  EffectVerified result s.invocations ↔ Undisturbed s.invocations

/-- `x` ends in a run for which the equivalence holds. -/
def Ends (x : Flow ω RemediationWorkflowResult) (s : RunState ω) : Prop :=
  Exec.Sat x s (fun r => Fits (.ok r)) (fun e => Fits (.error e))

/-- Run to its end, error handler included, `x` leaves a run for which the equivalence holds. -/
def Good (world : RunWorld ω) (value : RemediationWorkflowInput)
    (x : Flow ω RemediationWorkflowResult) (s : RunState ω) : Prop :=
  Exec.Sat x s (fun r => Fits (.ok r)) (fun e => Ends (recover world value e))

/-- Nothing is applied so far. -/
def Quiet (s : RunState ω) : Prop := ∀ e ∈ s.invocations, ¬Applied e

/-- Nothing is applied so far, and nothing verified. -/
def Before (s : RunState ω) : Prop :=
  ∀ e ∈ s.invocations, ¬Applied e ∧ e.call.activity ≠ .verify

theorem Before.quiet (h : Before s) : Quiet s := fun e he => (h e he).1

theorem Quiet.replied (h : Quiet s) {call : Call} {reply : Reply RemediationActivityOutcome}
    {fields : WorkflowFields} {w : ω} (hnew : ¬Applied ⟨call, reply, fields⟩) :
    Quiet (replied s call reply fields w) := by
  intro e he
  rw [replied_invocations, List.mem_append, List.mem_singleton] at he
  rcases he with he | rfl
  · exact h e he
  · exact hnew

/-- A call of another activity than those that apply an effect applies none. -/
theorem not_applied {name : Activity} (hname : name ≠ .execute ∧ name ≠ .reconcile)
    (input : RemediationActivityInput) (reply : Reply RemediationActivityOutcome)
    (fields : WorkflowFields) : ¬Applied ⟨⟨name, input⟩, reply, fields⟩ := by
  rintro (⟨h, -⟩ | ⟨h, -⟩)
  · exact hname.1 h
  · exact hname.2 h

theorem applied_execute {input : RemediationActivityInput}
    {reply : Reply RemediationActivityOutcome} {fields : WorkflowFields} :
    Applied ⟨⟨.execute, input⟩, reply, fields⟩ ↔ reports reply [.effectSucceeded] := by
  constructor
  · rintro (⟨-, hreports⟩ | ⟨hname, -⟩)
    · exact hreports
    · cases hname
  · exact fun hreports => .inl ⟨rfl, hreports⟩

theorem applied_reconcile {input : RemediationActivityInput}
    {reply : Reply RemediationActivityOutcome} {fields : WorkflowFields} :
    Applied ⟨⟨.reconcile, input⟩, reply, fields⟩ ↔ reports reply [.reconciled] := by
  constructor
  · rintro (⟨hname, -⟩ | ⟨-, hreports⟩)
    · cases hname
    · exact hreports
  · exact fun hreports => .inr ⟨rfl, hreports⟩

theorem reports_singleton {o : RemediationActivityOutcome} {outcome : Outcome} :
    reports (.ok o) [outcome] ↔ o.outcome = outcome := List.mem_singleton

theorem Quiet.called (h : Quiet s) {name : Activity} {input : RemediationActivityInput}
    {reply : Reply RemediationActivityOutcome} {fields : WorkflowFields} {w : ω}
    (hname : name ≠ .execute ∧ name ≠ .reconcile) :
    Quiet (Temporal.replied s ⟨name, input⟩ reply fields w) :=
  h.replied (not_applied hname input reply fields)

theorem Before.called (h : Before s) {name : Activity} {input : RemediationActivityInput}
    {reply : Reply RemediationActivityOutcome} {fields : WorkflowFields} {w : ω}
    (hnew : ¬Applied ⟨⟨name, input⟩, reply, fields⟩) (hname : name ≠ .verify) :
    Before (replied s ⟨name, input⟩ reply fields w) := by
  intro e he
  rw [replied_invocations, List.mem_append, List.mem_singleton] at he
  rcases he with he | rfl
  · exact h e he
  · exact ⟨hnew, hname⟩

/-- Calls of other activities than those that apply an effect keep a run quiet. -/
theorem kept_quiet {names : List Activity} (h : ∀ name ∈ names, name ≠ .execute ∧ name ≠ .reconcile) :
    KeptBy (Quiet (ω := ω)) names :=
  kept_calls fun call hcall reply fields =>
    not_applied (h call.activity hcall) call.input reply fields

theorem Quiet.fits (h : Quiet s) (result : Except Failure RemediationWorkflowResult) :
    Fits result s := verified_of_quiet h result

/-- A quiet run ends well in the error handler. -/
theorem recover_ends (h : Quiet s) (e : Failure) : Ends (recover world value e) s :=
  (recover_keeps (kept_quiet (by decide)) h e).mono (fun _ _ hs' => hs'.fits _) (fun _ _ hs' => hs'.fits _)

/-- A stage that applies nothing is good. -/
theorem good_of_quiet {x : Flow ω RemediationWorkflowResult}
    (h : Exec.Sat x s (fun _ => Quiet) (fun _ => Quiet)) : Good world value x s :=
  h.mono (fun _ _ hs' => hs'.fits _) (fun e _ hs' => recover_ends hs' e)

/-- A first step after which the rest is good, and whose exceptions apply nothing. -/
theorem good_bind {α : Type} {x : Flow ω α} {next : α → Flow ω RemediationWorkflowResult}
    (h : Exec.Sat x s (fun a s' => Good world value (next a) s') (fun _ => Quiet)) :
    Good world value (x >>= next) s := by
  unfold Good
  rw [Exec.sat_bind]
  exact h.mono (fun _ _ hgood => hgood) (fun e _ hs' => recover_ends hs' e)

/-- The look at the cancel command between two stages, before an effect. -/
theorem good_unlessCancelled {next : Flow ω RemediationWorkflowResult} (h : Quiet s)
    (hnext : s.fields.cancelCommand = none → Good world value next s) :
    Good world value (unlessCancelled world value next) s := by
  refine good_bind (sat_cancelIfRequested hnext (fun _ _ => h) ?_ ?_ ?_)
  · intro _ input signals o w _ _
    exact good_of_quiet (h.called (by decide))
  · intro _ input signals o w _ _
    exact h.called (by decide)
  · intro _ input signals cause w _
    exact h.called (by decide)

/-! ## From the effect on -/

/-- The calls so far, the effect applied by `e`. -/
structure After (pre : List Called) (e : Called) (tail : List Called) (s : RunState ω) : Prop where
  calls : s.invocations = pre ++ e :: tail
  before : ∀ x ∈ pre, ¬Applied x ∧ x.call.activity ≠ .verify
  applied : Applied e
  quiet : ∀ x ∈ tail, ¬Applied x

theorem After.called {pre tail : List Called} {e : Called} (h : After pre e tail s) {name : Activity}
    {input : RemediationActivityInput} {reply : Reply RemediationActivityOutcome}
    {fields : WorkflowFields} {w : ω} (hname : name ≠ .execute ∧ name ≠ .reconcile) :
    After pre e (tail ++ [⟨⟨name, input⟩, reply, fields⟩])
      (replied s ⟨name, input⟩ reply fields w) where
  calls := by rw [replied_invocations, h.calls, List.append_assoc, List.cons_append]
  before := h.before
  applied := h.applied
  quiet := by
    intro x hx
    rw [List.mem_append, List.mem_singleton] at hx
    rcases hx with hx | rfl
    · exact h.quiet x hx
    · exact not_applied hname input reply fields

/-- A run that was cancelled at the look after the effect never verifies. -/
theorem After.disturbed {pre tail : List Called} {e : Called} (h : After pre e tail s)
    (hcancel : e.fields.cancelCommand ≠ none) (hverify : ∀ x ∈ tail, x.call.activity ≠ .verify)
    (result : Except Failure RemediationWorkflowResult) :
    Fits result s := by
  unfold Fits
  rw [h.calls]
  refine verified_of_applied h.before h.applied h.quiet ⟨?_, ?_⟩
  · rintro ⟨⟨x, hx, hname⟩, -⟩
    exact absurd hname (hverify x hx)
  · rintro ⟨hnone, -⟩
    exact absurd hnone hcancel

/-- A run that verified is judged by its status and by the cancellations that overtook a call. -/
theorem After.verified {pre tail : List Called} {e : Called} (h : After pre e tail s)
    (hcancel : e.fields.cancelCommand = none) (hverify : ∃ x ∈ tail, x.call.activity = .verify)
    {result : Except Failure RemediationWorkflowResult}
    (hstatus : (∀ r, result = .ok r →
        r.status ∉ effectless) ↔
      tail.IsChain fun e next => ¬Overtaken e next) :
    Fits result s := by
  unfold Fits
  rw [h.calls]
  refine verified_of_applied h.before h.applied h.quiet ⟨?_, ?_⟩
  · rintro ⟨-, hr⟩
    exact ⟨hcancel, hstatus.mp hr⟩
  · rintro ⟨-, hchain⟩
    exact ⟨hverify, hstatus.mpr hchain⟩

/-- The way out with a status that is none of the four, or with an exception. -/
theorem After.fine {pre tail : List Called} {e : Called} (h : After pre e tail s)
    (hcancel : e.fields.cancelCommand = none) (hverify : ∃ x ∈ tail, x.call.activity = .verify)
    (hchain : tail.IsChain fun e next => ¬Overtaken e next)
    {result : Except Failure RemediationWorkflowResult}
    (hstatus : ∀ r, result = .ok r →
      r.status ∉ effectless) :
    Fits result s :=
  h.verified hcancel hverify ⟨fun _ => hchain, fun _ => hstatus⟩

/-- The handler of a failure after the verification was called.  Only here can a cancellation
    overtake a call, and then it is the last but one. -/
theorem recover_verified {pre tail : List Called} {e last : Called} {cause : Option Identifier}
    (h : After pre e (tail ++ [last]) s) (hcancel : e.fields.cancelCommand = none)
    (hverify : ∃ x ∈ tail ++ [last], x.call.activity = .verify)
    (hchain : (tail ++ [last]).IsChain fun e next => ¬Overtaken e next)
    (hfailed : failed last.reply) (hfields : last.fields = s.fields) :
    Ends (recover world value (.activityError cause)) s := by
  have hchain' : ∀ c : Called, ((tail ++ [last]) ++ [c]).IsChain (fun e next => ¬Overtaken e next) ↔
      ¬Overtaken last c := by
    intro c
    rw [List.isChain_append]
    simp [hchain]
  have hverify' : ∀ c : Called, ∃ x ∈ (tail ++ [last]) ++ [c], x.call.activity = .verify := by
    intro c
    obtain ⟨x, hx, hname⟩ := hverify
    exact ⟨x, List.mem_append_left _ hx, hname⟩
  refine sat_recover (fun _ => ?_) (fun _ error => ?_) (fun hin input signals o w _ ho => ?_)
    (fun hin input signals o w _ ho => ?_) (fun hin input signals cause' w _ => ?_)
  · refine h.fine hcancel hverify hchain (fun r hr => ?_)
    cases hr
    show Status.failed ∉ effectless
    decide
  · refine h.fine hcancel hverify hchain (fun r hr => ?_)
    cases hr
  · -- the cancellation goes through: the status is `cancelled`, and the failure was overtaken
    refine (h.called (by decide)).verified hcancel (hverify' _) ⟨fun hr => ?_, fun hc => ?_⟩
    · exact absurd (by decide : Status.cancelled ∈ effectless)
        (hr _ rfl)
    · exact absurd ⟨hfailed, by rw [hfields]; exact hin, ho⟩ ((hchain' _).mp hc)
  · refine (h.called (by decide)).fine hcancel (hverify' _) ((hchain' _).mpr ?_) (fun r hr => ?_)
    · rintro ⟨-, -, hreports⟩
      exact ho hreports
    · cases hr
  · refine (h.called (by decide)).fine hcancel (hverify' _) ((hchain' _).mpr ?_) (fun r hr => ?_)
    · rintro ⟨-, -, hreports⟩
      exact hreports
    · cases hr
      show Status.failed ∉ effectless
      decide

/-- An input that cannot be built ends the run with its exception. -/
theorem recover_invalid {operation : String} {commandRef : Option Identifier} {e : Failure}
    (he : activityInput value operation commandRef = .error e)
    (h : ∀ error, Fits (.error (.other error)) s) : Ends (recover world value e) s := by
  obtain ⟨error, rfl⟩ := activityInput_error he
  exact h error

/-- A chain of calls that came back is not overtaken, nor is one more call after it. -/
theorem chain_concat {tail : List Called} (h : ∀ x ∈ tail, ¬failed x.reply) (c : Called) :
    (tail ++ [c]).IsChain fun e next => ¬Overtaken e next := by
  induction tail with
  | nil => exact List.isChain_singleton c
  | cons x tail ih =>
    have hx : ∀ y, ¬Overtaken x y := fun y hy => h x List.mem_cons_self hy.1
    have htail := ih (fun y hy => h y (List.mem_cons_of_mem _ hy))
    cases tail with
    | nil => exact List.isChain_cons_cons.mpr ⟨hx c, htail⟩
    | cons y tail => exact List.isChain_cons_cons.mpr ⟨hx y, htail⟩

/-- The state of a run that has verified an undisturbed effect, all calls so far answered. -/
structure Verifying (pre : List Called) (e : Called) (tail : List Called) (s : RunState ω) :
    Prop extends After pre e tail s where
  undisturbed : e.fields.cancelCommand = none
  verify : ∃ x ∈ tail, x.call.activity = .verify
  answered : ∀ x ∈ tail, ¬failed x.reply

theorem Verifying.chain {pre tail : List Called} {e : Called} (h : Verifying pre e tail s) :
    tail.IsChain fun e next => ¬Overtaken e next := by
  rcases List.eq_nil_or_concat' tail with rfl | ⟨init, c, rfl⟩
  · exact List.isChain_nil
  · exact chain_concat (fun x hx => h.answered x (List.mem_append_left _ hx)) c

theorem Verifying.fine' {pre tail : List Called} {e : Called} (h : Verifying pre e tail s)
    {result : Except Failure RemediationWorkflowResult}
    (hstatus : ∀ r, result = .ok r → r.status ∉ effectless) :
    Fits result s :=
  h.toAfter.fine h.undisturbed h.verify h.chain hstatus

theorem Verifying.called' {pre tail : List Called} {e : Called} (h : Verifying pre e tail s)
    {name : Activity} {input : RemediationActivityInput} {o : RemediationActivityOutcome}
    {fields : WorkflowFields} {w : ω} (hname : name ≠ .execute ∧ name ≠ .reconcile) :
    Verifying pre e (tail ++ [⟨⟨name, input⟩, .ok o, fields⟩])
      (replied s ⟨name, input⟩ (.ok o) fields w) where
  toAfter := h.toAfter.called hname
  undisturbed := h.undisturbed
  verify := by
    obtain ⟨x, hx, hverify⟩ := h.verify
    exact ⟨x, List.mem_append_left _ hx, hverify⟩
  answered := by
    intro x hx
    rw [List.mem_append, List.mem_singleton] at hx
    rcases hx with hx | rfl
    · exact h.answered x hx
    · exact id

/-- A failed call of a verifying run is left to the error handler. -/
theorem Verifying.recovers {pre tail : List Called} {e : Called} (h : Verifying pre e tail s)
    {name : Activity} {input : RemediationActivityInput} {cause : Option Identifier}
    {fields : WorkflowFields} {w : ω} (hname : name ≠ .execute ∧ name ≠ .reconcile) :
    Ends (recover world value (.activityError cause))
      (replied s ⟨name, input⟩ (.error cause) fields w) := by
  obtain ⟨x, hx, hverify⟩ := h.verify
  exact recover_verified (h.toAfter.called hname) h.undisturbed
    ⟨x, List.mem_append_left _ hx, hverify⟩ (chain_concat h.answered _) trivial rfl

theorem escalate_verifying {pre tail : List Called} {e : Called} (h : Verifying pre e tail s)
    (code : Identifier) : Good world value (escalate world value code) s := by
  unfold Good escalate
  rw [Exec.sat_bind]
  refine sat_requireOutcome (fun failure he => ?_) (fun input signals o w _ _ => ?_)
    (fun input signals o w _ _ => ?_) (fun input signals cause w _ => ?_)
  · refine recover_invalid he (fun error => h.fine' (fun r hr => ?_))
    cases hr
  · refine (h.called' (by decide)).fine' (fun r hr => ?_)
    cases hr
    show Status.escalated ∉ effectless
    decide
  · refine (h.called' (by decide)).fine' (fun r hr => ?_)
    cases hr
    show Status.failed ∉ effectless
    decide
  · exact h.recovers (by decide)

theorem rollBack_verifying {pre tail : List Called} {e : Called} (h : Verifying pre e tail s) :
    Good world value (rollBack world value) s := by
  unfold Good rollBack
  rw [Exec.sat_bind]
  refine sat_callActivity (fun failure he => ?_) (fun input signals o w _ _ => ?_)
    (fun input signals cause w _ => h.recovers (by decide))
  · refine recover_invalid he (fun error => h.fine' (fun r hr => ?_))
    cases hr
  · split
    · refine (h.called' (by decide)).fine' (fun r hr => ?_)
      cases hr
      show Status.rolledBack ∉ effectless
      decide
    · exact escalate_verifying (h.called' (by decide)) _

/-- The verification of an undisturbed effect.  Its input is shorter than that of the call that
    applied the effect, so it can be built. -/
theorem verifyEffect_applied {pre : List Called} {e : Called} {operation : String}
    {commandRef : Option Identifier} {input : RemediationActivityInput} (h : After pre e [] s)
    (hcancel : e.fields.cancelCommand = none)
    (hinput : activityInput value operation commandRef = .ok input)
    (hlonger : "verify".toList.length ≤ operation.toList.length)
    (effect : RemediationActivityOutcome) : Good world value (verifyEffect world value effect) s := by
  obtain ⟨verifyInput, hverifyInput⟩ :
      ∃ input, activityInput value "verify" none = .ok input :=
    activityInput_shorter hinput hlonger (by decide)
  unfold Good verifyEffect
  rw [Exec.sat_bind]
  refine sat_callActivity (fun failure he => ?_) (fun input signals o w _ _ => ?_)
    (fun input signals cause w _ => ?_)
  · rw [hverifyInput] at he; cases he
  · have hverifying : Verifying pre e [⟨⟨.verify, input⟩, .ok o, handleAll handle s.fields signals⟩]
        (Temporal.replied s ⟨.verify, input⟩ (.ok o) (handleAll handle s.fields signals) w) :=
      { toAfter := h.called (by decide), undisturbed := hcancel,
        verify := ⟨_, List.mem_singleton_self _, rfl⟩,
        answered := by
          intro x hx
          rw [List.mem_singleton.mp hx]
          exact id }
    split
    · refine hverifying.fine' (fun r hr => ?_)
      cases hr
      show Status.verified ∉ effectless
      decide
    · split
      · refine hverifying.fine' (fun r hr => ?_)
        cases hr
        show Status.failed ∉ effectless
        decide
      · exact rollBack_verifying hverifying
  · have hafter : After pre e ([] ++ [⟨⟨.verify, input⟩, .error cause,
        handleAll handle s.fields signals⟩])
        (Temporal.replied s ⟨.verify, input⟩ (.error cause) (handleAll handle s.fields signals) w) :=
      h.called (by decide)
    exact recover_verified hafter hcancel ⟨_, List.mem_singleton_self _, rfl⟩
      (List.isChain_singleton _) trivial rfl

/-- The error handler of a run whose effect was disturbed: it may cancel, it never verifies. -/
theorem recover_disturbed {pre tail : List Called} {e : Called} {failure : Failure}
    (h : After pre e tail s) (hcancel : e.fields.cancelCommand ≠ none)
    (hverify : ∀ x ∈ tail, x.call.activity ≠ .verify) :
    Ends (recover world value failure) s := by
  have hmore : ∀ (input : RemediationActivityInput) (reply : Reply RemediationActivityOutcome)
      (fields : WorkflowFields), ∀ x ∈ tail ++ [(⟨⟨.cancel, input⟩, reply, fields⟩ : Called)],
      x.call.activity ≠ .verify := by
    intro input reply fields x hx
    rw [List.mem_append, List.mem_singleton] at hx
    rcases hx with hx | rfl
    · exact hverify x hx
    · intro hname; cases hname
  cases failure with
  | applicationError type => exact h.disturbed hcancel hverify _
  | other error => exact h.disturbed hcancel hverify _
  | activityError cause =>
    refine sat_recover (fun _ => ?_) (fun _ error => ?_) (fun _ input signals o w _ _ => ?_)
      (fun _ input signals o w _ _ => ?_) (fun _ input signals cause' w _ => ?_)
    · exact h.disturbed hcancel hverify _
    · exact h.disturbed hcancel hverify _
    · exact (h.called (by decide)).disturbed hcancel (hmore _ _ _) _
    · exact (h.called (by decide)).disturbed hcancel (hmore _ _ _) _
    · exact (h.called (by decide)).disturbed hcancel (hmore _ _ _) _

/-- **The look after the effect.**  With a cancel command in, the run cancels and never verifies;
    without one it verifies. -/
theorem good_applied {pre : List Called} {e : Called} {operation : String}
    {commandRef : Option Identifier} {input : RemediationActivityInput} (h : After pre e [] s)
    (hfields : e.fields = s.fields) (hinput : activityInput value operation commandRef = .ok input)
    (hlonger : "verify".toList.length ≤ operation.toList.length)
    (effect : RemediationActivityOutcome) :
    Good world value (unlessCancelled world value (verifyEffect world value effect)) s := by
  have hnever : ∀ (input : RemediationActivityInput) (reply : Reply RemediationActivityOutcome)
      (fields : WorkflowFields), ∀ x ∈ [] ++ [(⟨⟨.cancel, input⟩, reply, fields⟩ : Called)],
      x.call.activity ≠ .verify := by
    intro input reply fields x hx
    rw [List.nil_append, List.mem_singleton] at hx
    rw [hx]
    intro hname; cases hname
  unfold Good unlessCancelled
  rw [Exec.sat_bind]
  refine sat_cancelIfRequested (fun hnone => ?_) (fun hin error => ?_)
    (fun hin input signals o w _ _ => ?_) (fun hin input signals o w _ _ => ?_)
    (fun hin input signals cause w _ => ?_)
  · exact verifyEffect_applied h (by rw [hfields]; exact hnone) hinput hlonger effect
  · rw [← hfields] at hin
    exact recover_disturbed h hin (fun x hx => absurd hx List.not_mem_nil)
  · rw [← hfields] at hin
    exact (h.called (by decide)).disturbed hin (hnever _ _ _) _
  · rw [← hfields] at hin
    exact recover_disturbed (h.called (by decide)) hin (hnever _ _ _)
  · rw [← hfields] at hin
    exact recover_disturbed (h.called (by decide)) hin (hnever _ _ _)

/-- A call that came back with the effect applied is the first of its kind. -/
theorem Before.after (h : Before s) {name : Activity} {input : RemediationActivityInput}
    {reply : Reply RemediationActivityOutcome} {fields : WorkflowFields} {w : ω}
    (happlied : Applied ⟨⟨name, input⟩, reply, fields⟩) :
    After s.invocations ⟨⟨name, input⟩, reply, fields⟩ []
      (replied s ⟨name, input⟩ reply fields w) where
  calls := rfl
  before := h
  applied := happlied
  quiet := fun _ hx => absurd hx List.not_mem_nil

/-! ## The stages -/

/-- A wait, or taking a command off a queue, makes no call. -/
theorem kept_before : KeptBy (Before (ω := ω)) [] := kept_calls fun _ hcall => by cases hcall

theorem reconcileEffect_good (h : Before s) :
    Good world value (reconcileEffect world value) s := by
  unfold reconcileEffect
  refine good_bind (sat_waitCondition (fun signals w _ => ?_))
  have hwaited : Before ({ s with fields := handleAll handle s.fields signals, world := w }
      : RunState ω) := h
  split
  · exact good_of_quiet (escalate_keeps (kept_quiet (by decide)) hwaited.quiet _)
  · refine good_unlessCancelled hwaited.quiet (fun _ => ?_)
    refine good_bind ((popReconciliation_keeps kept_before hwaited).mono (fun command s' hs' => ?_)
      (fun _ _ hs' => hs'.quiet))
    refine good_bind (sat_callActivity (fun _ _ => hs'.quiet)
      (fun input signals o w hinput _ => ?_) (fun input signals cause w _ => ?_))
    · by_cases hreconciled : o.outcome = .reconciled
      · rw [if_neg (not_not.mpr hreconciled)]
        have happlied : Applied ⟨⟨.reconcile, input⟩, .ok o, handleAll handle s'.fields signals⟩ :=
          applied_reconcile.mpr (reports_singleton.mpr hreconciled)
        exact good_applied (hs'.after happlied) rfl hinput (by decide) o
      · rw [if_pos hreconciled]
        have hnew : ¬Applied ⟨⟨.reconcile, input⟩, .ok o, handleAll handle s'.fields signals⟩ :=
          fun happlied => hreconciled (reports_singleton.mp (applied_reconcile.mp happlied))
        have hquiet : Quiet (replied s' ⟨.reconcile, input⟩ (.ok o)
            (handleAll handle s'.fields signals) w) := hs'.quiet.replied hnew
        exact good_of_quiet (escalate_keeps (kept_quiet (by decide)) hquiet _)
    · exact hs'.quiet.replied applied_reconcile.mp

theorem executeEffect_good (h : Before s) : Good world value (executeEffect world value) s := by
  unfold executeEffect
  refine good_bind (sat_callActivity (fun _ _ => h.quiet)
    (fun input signals o w hinput _ => ?_) (fun input signals cause w _ => ?_))
  · by_cases hsucceeded : o.outcome = .effectSucceeded
    · rw [if_neg (by rw [hsucceeded]; decide), if_neg (by rw [hsucceeded]; decide)]
      have happlied : Applied ⟨⟨.execute, input⟩, .ok o, handleAll handle s.fields signals⟩ :=
        applied_execute.mpr (reports_singleton.mpr hsucceeded)
      exact good_applied (h.after happlied) rfl hinput (by decide) o
    · have hnew : ¬Applied ⟨⟨.execute, input⟩, .ok o, handleAll handle s.fields signals⟩ :=
        fun happlied => hsucceeded (reports_singleton.mp (applied_execute.mp happlied))
      split
      · exact reconcileEffect_good (h.called hnew (by decide))
      · split
        · exact good_of_quiet (escalate_keeps (kept_quiet (by decide)) (h.quiet.replied hnew) _)
        · exact good_unlessCancelled (h.quiet.replied hnew)
            (fun _ => good_of_quiet (verifyEffect_keeps (kept_quiet (by decide)) (h.quiet.replied hnew) o))
  · exact h.quiet.replied applied_execute.mp

theorem preflightEffect_good (h : Before s) :
    Good world value (preflightEffect world value) s := by
  unfold preflightEffect
  refine good_bind (sat_requireOutcome (fun _ _ => h.quiet) (fun input signals o w _ _ => ?_)
    (fun input signals o w _ _ => h.quiet.called (by decide))
    (fun input signals cause w _ => h.quiet.called (by decide)))
  exact good_unlessCancelled (h.quiet.called (by decide)) (fun _ =>
    executeEffect_good (h.called (not_applied (by decide) _ _ _) (by decide)))

theorem loadApproval_good (h : Before s) : Good world value (loadApproval world value) s := by
  unfold loadApproval
  refine good_bind ((popApproval_keeps kept_before h).mono (fun command s' hs' => ?_)
    (fun _ _ hs' => hs'.quiet))
  refine good_bind (sat_callActivity (fun _ _ => hs'.quiet) (fun input signals o w _ _ => ?_)
    (fun input signals cause w _ => hs'.quiet.called (by decide)))
  have hloaded : Before (replied s' ⟨.loadApprovalDecision, input⟩ (.ok o)
      (handleAll handle s'.fields signals) w) :=
    hs'.called (not_applied (by decide) _ _ _) (by decide)
  unfold followDecision
  split
  · exact good_of_quiet hloaded.quiet
  · split
    · exact good_of_quiet hloaded.quiet
    · exact good_unlessCancelled hloaded.quiet (fun _ => preflightEffect_good hloaded)

theorem lifecycle_good (h : Before s) : Good world value (lifecycle world value) s := by
  unfold lifecycle
  refine good_bind (sat_requireOutcome (fun _ _ => h.quiet) (fun input signals o w _ _ => ?_)
    (fun input signals o w _ _ => h.quiet.called (by decide))
    (fun input signals cause w _ => h.quiet.called (by decide)))
  have hrequested : Before (replied s ⟨.requestApproval, input⟩ (.ok o)
      (handleAll handle s.fields signals) w) :=
    h.called (not_applied (by decide) _ _ _) (by decide)
  refine good_bind (sat_waitCondition (fun signals' w' _ => ?_))
  unfold afterWait
  split
  · refine good_of_quiet ?_
    rw [Exec.sat_bind]
    exact requireOutcome_keeps (kept_quiet (by decide)) hrequested.quiet
  · exact good_unlessCancelled hrequested.quiet (fun _ => loadApproval_good hrequested)

end Run

/-! ## Every run -/

/-- **Applied effects are verified exactly when undisturbed.**  In every world, the run verifies an
    applied effect, and does not end as if there had been none, if and only if no cancel command is in
    when the effect is known to be applied and no later activity fails under one that goes through. -/
theorem effect_verified_iff {ω : Type} (world : RunWorld ω) (w : ω)
    (value : RemediationWorkflowInput) :
    let run := runRemediation world value (.start .init w)
    EffectVerified run.1 run.2.invocations ↔ Undisturbed run.2.invocations := by
  have hstart : Before (Progress.start .init w : RunState ω) :=
    fun _ he => absurd he List.not_mem_nil
  have hends : Ends (runRemediation world value) (.start .init w) := by
    unfold Ends runRemediation
    rw [Exec.sat_catching]
    exact lifecycle_good hstart
  exact hends.outcome

/-! ## A run that is cancelled after its effect -/

def sampleInput : RemediationWorkflowInput where
  tenantRef := ⟨"t", computed⟩
  actorRef := literalIdentifier "actor"
  requestRef := literalIdentifier "request"
  runId := literalIdentifier "run"
  planRef := literalIdentifier "plan"
  actionRef := literalIdentifier "action"
  workflowId := literalIdentifier "workflow"
  approvalTimeoutSeconds := 7200
  reconciliationTimeoutSeconds := 900
  approval_timeout_ok := by decide
  reconciliation_timeout_ok := quarter_hour

/-- An await at which an activity, if there is one, reports `outcome`. -/
def turn (signals : List Signal) (outcome : Outcome) :
    Turn Signal (Reply RemediationActivityOutcome) := ⟨signals, .ok ⟨outcome, none⟩⟩

/-- The world that follows a list of turns. -/
def scripted : RunWorld (List (Turn Signal (Reply RemediationActivityOutcome))) :=
  World.scripted (turn [] .recorded)

/-- The cancel signal arrives while the effect is executed. -/
def cancelDuringExecution : List (Turn Signal (Reply RemediationActivityOutcome)) :=
  [turn [] .recorded, turn [.approvalDecision (literalIdentifier "c1")] .recorded,
   turn [] .granted, turn [] .preflightSucceeded,
   turn [.requestCancel (literalIdentifier "c2")] .effectSucceeded, turn [] .cancelled]

/-- The effect succeeds, the run ends cancelled, and the verification was never called. -/
theorem effect_cancelled_unverified :
    let run := runRemediation scripted sampleInput (.start .init cancelDuringExecution)
    (run.1.toOption.map (·.status) = some .cancelled) ∧
      ¬EffectVerified run.1 run.2.invocations := by
  refine ⟨by decide +kernel, fun h => ?_⟩
  have happlied : ∃ e ∈ (runRemediation scripted sampleInput
      (.start .init cancelDuringExecution)).2.invocations, Applied e := by decide +kernel
  have hnever : ∀ e ∈ (runRemediation scripted sampleInput
      (.start .init cancelDuringExecution)).2.invocations, e.call.activity ≠ .verify := by
    decide +kernel
  obtain ⟨e, he, hverify⟩ := (h happlied).1
  exact hnever e he hverify

end RemediationTemporal

end Aegis
