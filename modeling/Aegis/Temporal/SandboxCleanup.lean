/-
  A SANDBOX RUN THAT REPORTS SUCCESS.

  Success needs four things of a run: the execution, or its reconciliation, reported `succeeded`; the
  outputs were captured; the attestation was recorded; and the deletion of the sandbox was confirmed.
  The code checks the first three and the cleanup's own outcome, but it DISCARDS what the reconciliation
  of an ambiguous cleanup reports.  So a run is honest exactly when that reconciliation does not report
  `ambiguous` or `failed` after a run that had otherwise succeeded (`honest_iff`).
-/
import Mathlib
import Aegis.Temporal.Sandbox

namespace Aegis

namespace SandboxTemporal

open Workflow Temporal

/-! ## What a run has done -/

/-- The reply is one of the outcomes. -/
def reports (reply : Reply SandboxActivityOutcome) (outcomes : List Outcome) : Prop :=
  match reply with
  | .ok o => o.outcome ∈ outcomes
  | .error _ => False

instance (reply : Reply SandboxActivityOutcome) (outcomes : List Outcome) :
    Decidable (reports reply outcomes) :=
  match reply with
  | .ok o => inferInstanceAs (Decidable (o.outcome ∈ outcomes))
  | .error _ => inferInstanceAs (Decidable False)

theorem reports_singleton {o : SandboxActivityOutcome} {outcome : Outcome} :
    reports (.ok o) [outcome] ↔ o.outcome = outcome := List.mem_singleton

/-- The reply is an outcome, and not one of these. -/
def settles (reply : Reply SandboxActivityOutcome) (outcomes : List Outcome) : Prop :=
  match reply with
  | .ok o => o.outcome ∉ outcomes
  | .error _ => False

/-- The call, or the reconciliation after it, reported that the execution succeeded. -/
def ExecutionSucceeded (calls : List Called) : Prop :=
  ∃ pre e rest, calls = pre ++ e :: rest ∧ e.call.activity = .waitForCompletion ∧
    (reports e.reply [.succeeded] ∨ (reports e.reply [.ambiguous] ∧
      ∃ r, rest.head? = some r ∧ r.call.activity ∈ reconciliations ∧ reports r.reply [.succeeded]))

def OutputsCaptured (calls : List Called) : Prop :=
  ∃ e ∈ calls, e.call.activity = .captureOutputs ∧ reports e.reply [.captured, .duplicate]

def AttestationRecorded (calls : List Called) : Prop :=
  ∃ e ∈ calls, e.call.activity = .attest ∧ reports e.reply [.attested, .duplicate]

/-- The cleanup, or the reconciliation after it, confirmed the deletion. -/
def DeletionConfirmed (calls : List Called) : Prop :=
  ∃ pre e rest, calls = pre ++ e :: rest ∧ e.call.activity = .cleanup ∧
    (reports e.reply [.cleaned, .absent, .duplicate] ∨ (reports e.reply [.ambiguous] ∧
      ∃ r, rest.head? = some r ∧ r.call.activity ∈ reconciliations ∧
        settles r.reply [.ambiguous, .failed]))

/-- The reconciliation of an ambiguous cleanup reported that the sandbox may still be there. -/
def DeletionUnsettled (calls : List Called) : Prop :=
  ∃ pre e rest, calls = pre ++ e :: rest ∧ e.call.activity = .cleanup ∧
    reports e.reply [.ambiguous] ∧
    ∃ r, rest.head? = some r ∧ r.call.activity ∈ reconciliations ∧
      reports r.reply [.ambiguous, .failed]

/-- The cleanup is called before the run returns, and success is success. -/
def Honest (result : Except Failure SandboxWorkflowResult) (calls : List Called) : Prop :=
  ∀ r, result = .ok r → (∃ e ∈ calls, e.call.activity = .cleanup) ∧
    (r.status = .succeeded → ExecutionSucceeded calls ∧ OutputsCaptured calls ∧
      AttestationRecorded calls ∧ DeletionConfirmed calls)

/-- All but the deletion. -/
def Accomplished (calls : List Called) : Prop :=
  ExecutionSucceeded calls ∧ OutputsCaptured calls ∧ AttestationRecorded calls

/-! ## More calls -/

theorem ExecutionSucceeded.append {calls : List Called} (h : ExecutionSucceeded calls)
    (more : List Called) : ExecutionSucceeded (calls ++ more) := by
  obtain ⟨pre, e, rest, rfl, hname, hreport⟩ := h
  refine ⟨pre, e, rest ++ more, by rw [List.append_assoc, List.cons_append], hname, ?_⟩
  rcases hreport with hreport | ⟨hambiguous, r, hhead, hr⟩
  · exact .inl hreport
  · exact .inr ⟨hambiguous, r, by rw [List.head?_append, hhead]; rfl, hr⟩

theorem Accomplished.append {calls : List Called} (h : Accomplished calls) (more : List Called) :
    Accomplished (calls ++ more) := by
  obtain ⟨hexecution, ⟨c, hc, hcapture⟩, a, ha, hattest⟩ := h
  exact ⟨hexecution.append more, ⟨c, List.mem_append_left _ hc, hcapture⟩,
    a, List.mem_append_left _ ha, hattest⟩

section Cleanup

variable {pre tail : List Called} {c : Called} (hpre : ∀ e ∈ pre, e.call.activity ≠ .cleanup)
  (hc : c.call.activity = .cleanup) (htail : ∀ e ∈ tail, e.call.activity ≠ .cleanup)

include hpre hc htail

/-- A run calls the cleanup once, so the deletion is about that call and the one after it. -/
theorem deletionConfirmed_iff : DeletionConfirmed (pre ++ c :: tail) ↔
    (reports c.reply [.cleaned, .absent, .duplicate] ∨ (reports c.reply [.ambiguous] ∧
      ∃ r, tail.head? = some r ∧ r.call.activity ∈ reconciliations ∧
        settles r.reply [.ambiguous, .failed])) := by
  constructor
  · rintro ⟨pre', e, rest, hsplit, hname, h⟩
    obtain ⟨rfl, rfl⟩ := split_unique (p := fun e : Called => e.call.activity = .cleanup) hpre htail
      hname hsplit
    exact h
  · exact fun h => ⟨pre, c, tail, rfl, hc, h⟩

theorem deletionUnsettled_iff : DeletionUnsettled (pre ++ c :: tail) ↔
    (reports c.reply [.ambiguous] ∧ ∃ r, tail.head? = some r ∧
      r.call.activity ∈ reconciliations ∧ reports r.reply [.ambiguous, .failed]) := by
  constructor
  · rintro ⟨pre', e, rest, hsplit, hname, h⟩
    obtain ⟨rfl, rfl⟩ := split_unique (p := fun e : Called => e.call.activity = .cleanup) hpre htail
      hname hsplit
    exact h
  · exact fun h => ⟨pre, c, tail, rfl, hc, h⟩

end Cleanup

theorem not_unsettled_of_uncleaned {calls : List Called}
    (h : ∀ e ∈ calls, e.call.activity ≠ .cleanup) : ¬DeletionUnsettled calls := by
  rintro ⟨pre, e, rest, rfl, hname, -⟩
  exact h e (List.mem_append_right _ List.mem_cons_self) hname

/-! ## Up to the cleanup -/

section Run

variable {ω : Type} {world : RunWorld ω} {value : SandboxWorkflowInput} {s : RunState ω}

/-- No call of the capture, the attestation or the cleanup so far. -/
def Early (s : RunState ω) : Prop :=
  ∀ e ∈ s.invocations, e.call.activity ∉ [Activity.captureOutputs, .attest, .cleanup]

theorem kept_early {names : List Activity}
    (h : ∀ name ∈ names, name ∉ [Activity.captureOutputs, .attest, .cleanup]) :
    KeptBy (Early (ω := ω)) names :=
  kept_calls fun call hcall _ _ => h call.activity hcall

/-- No call of the cleanup so far. -/
def Uncleaned (s : RunState ω) : Prop := ∀ e ∈ s.invocations, e.call.activity ≠ .cleanup

/-- The state before the cleanup: a success that is one, or no success and no attestation. -/
def Ready (terminal : Except Failure SandboxWorkflowResult) (s : RunState ω) : Prop :=
  Uncleaned s ∧
    ((∃ r, terminal = .ok r ∧ r.status = .succeeded ∧ Accomplished s.invocations) ∨
      ((∀ r, terminal = .ok r → r.status ≠ .succeeded) ∧ ¬AttestationRecorded s.invocations))

theorem Early.uncleaned (h : Early s) : Uncleaned s := fun e he hname =>
  h e he (by rw [hname]; decide)

theorem Early.unattested (h : Early s) : ¬AttestationRecorded s.invocations := by
  rintro ⟨e, he, hname, -⟩
  exact h e he (by rw [hname]; decide)

theorem Early.ready (h : Early s) {terminal : Except Failure SandboxWorkflowResult}
    (hstatus : ∀ r, terminal = .ok r → r.status ≠ .succeeded) : Ready terminal s :=
  ⟨h.uncleaned, .inr ⟨hstatus, h.unattested⟩⟩

theorem Early.same (h : Early s) {s' : RunState ω} (hcalls : s'.invocations = s.invocations) :
    Early s' := by
  intro e he
  rw [hcalls] at he
  exact h e he

theorem Early.reconciled (h : Early s) {s' : RunState ω} {call : Call}
    {reply : Reply SandboxActivityOutcome} {fields : WorkflowFields}
    (hname : call.activity ∈ reconciliations)
    (hcalls : s'.invocations = s.invocations ++ [⟨call, reply, fields⟩]) : Early s' := by
  intro e he
  rw [hcalls, List.mem_append, List.mem_singleton] at he
  rcases he with he | rfl
  · exact h e he
  · have hall : ∀ name ∈ reconciliations,
        name ∉ [Activity.captureOutputs, .attest, .cleanup] := by decide
    exact hall _ hname

theorem reconcileAmbiguous_early (h : Early s) :
    Exec.Sat (reconcileAmbiguous world value) s (fun _ => Early) (fun _ => Early) :=
  sat_reconcileAmbiguous (fun _ hcalls => ⟨fun _ => h.same hcalls, fun _ => h.same hcalls⟩)
    (fun _ _ _ _ hname hcalls => h.reconciled hname hcalls)
    (fun _ _ _ _ hname hcalls => h.reconciled hname hcalls)

/-- Provisioning never ends a run with success. -/
theorem provision_early {terminal : Option SandboxWorkflowResult} (h : Early s)
    (hterminal : ∀ t, terminal = some t → t.status ≠ .succeeded) :
    Exec.Sat (provision world value terminal) s
      (fun r s' => Early s' ∧ ∀ t, r = some t → t.status ≠ .succeeded) (fun _ => Early) := by
  cases terminal with
  | some t => exact ⟨h, hterminal⟩
  | none =>
    unfold provision
    refine (callActivity_keeps (kept_early (by decide)) h).call (fun _ _ hs' => hs')
      (fun o s' hs' => ?_)
    have hunambiguous : Exec.Sat (unambiguous world value o) s' (fun _ => Early) (fun _ => Early) := by
      unfold unambiguous
      split
      · exact reconcileAmbiguous_early hs'
      · exact hs'
    refine hunambiguous.call (fun _ _ hs'' => hs'') (fun o' s'' hs'' => ?_)
    split
    · refine ⟨hs'', fun t ht => ?_⟩
      cases ht
      exact (by decide : Status.failed ≠ .succeeded)
    · exact ⟨hs'', fun t ht => (by cases ht)⟩

/-- Only a reported success makes a result one. -/
theorem executionResult_succeeded {o : SandboxActivityOutcome}
    (h : (executionResult value o).status = .succeeded) : o.outcome = .succeeded := by
  obtain ⟨outcome, resultRef, providerRef⟩ := o
  cases outcome <;> first
    | rfl
    | cases h

/-- The end of the execution stage: a success is a reported one. -/
def Waited (r : SandboxWorkflowResult) (s : RunState ω) : Prop :=
  Early s ∧ (r.status = .succeeded → ExecutionSucceeded s.invocations)

theorem awaitExecution_waited {terminal : Option SandboxWorkflowResult} (h : Early s)
    (hterminal : ∀ t, terminal = some t → t.status ≠ .succeeded) :
    Exec.Sat (awaitExecution world value terminal) s Waited (fun _ => Early) := by
  cases terminal with
  | some t => exact ⟨h, fun hstatus => absurd hstatus (hterminal t rfl)⟩
  | none =>
    have hkept : KeptBy (Early (ω := ω)) [.waitForCompletion] := kept_early (by decide)
    have hcalled : ∀ (input : SandboxActivityInput) reply fields (w : ω),
        Early (replied s ⟨.waitForCompletion, input, value.executionTimeoutSeconds + 60, some 30⟩
          reply fields w) := fun input reply fields w =>
      hkept.called _ List.mem_cons_self s reply fields w h
    unfold awaitExecution
    rw [Exec.sat_bind]
    refine sat_callActivity (fun _ => h) (fun input o fields w => ?_)
      (fun input cause fields w => hcalled _ _ _ _)
    have hwaiting := hcalled input (.ok o) fields w
    unfold handleExecution unambiguous
    rw [Exec.sat_bind]
    split
    · rename_i hambiguous
      refine sat_reconcileAmbiguous
        (fun _ hcalls => ⟨fun _ => hwaiting.same hcalls, fun _ => hwaiting.same hcalls⟩)
        (fun call o' s' fields' hname hcalls => ⟨hwaiting.reconciled hname hcalls, fun hstatus => ?_⟩)
        (fun call cause s' fields' hname hcalls => hwaiting.reconciled hname hcalls)
      -- the reconciliation is the call right after the ambiguous one
      refine ⟨s.invocations, ⟨⟨.waitForCompletion, input, value.executionTimeoutSeconds + 60,
        some 30⟩, .ok o, fields⟩, [⟨call, .ok o', fields'⟩], ?_, rfl,
        .inr ⟨reports_singleton.mpr hambiguous, ⟨call, .ok o', fields'⟩, rfl, hname, ?_⟩⟩
      · rw [hcalls, replied_invocations, List.append_assoc]
        rfl
      · exact reports_singleton.mpr (executionResult_succeeded hstatus)
    · refine ⟨hwaiting, fun hstatus => ⟨s.invocations, ⟨⟨.waitForCompletion, input,
        value.executionTimeoutSeconds + 60, some 30⟩, .ok o, fields⟩, [], rfl, rfl, .inl ?_⟩⟩
      exact reports_singleton.mpr (executionResult_succeeded hstatus)

/-- A run that has called neither the cleanup nor a successful attestation, and stops without success. -/
theorem ready_of_stopped {terminal : Except Failure SandboxWorkflowResult} (hclean : Uncleaned s)
    (hattest : ¬AttestationRecorded s.invocations)
    (hstatus : ∀ r, terminal = .ok r → r.status ≠ .succeeded) : Ready terminal s :=
  ⟨hclean, .inr ⟨hstatus, hattest⟩⟩

theorem not_succeeded {r : SandboxWorkflowResult} (h : r.status ≠ .succeeded) :
    ∀ r', (.ok r : Except Failure SandboxWorkflowResult) = .ok r' → r'.status ≠ .succeeded := by
  intro r' hr'
  cases hr'
  exact h

theorem not_returned {e : Failure} : ∀ r, (.error e : Except Failure SandboxWorkflowResult) = .ok r →
    r.status ≠ .succeeded := fun r hr => by cases hr

theorem Uncleaned.called (h : Uncleaned s) {call : Call} {reply : Reply SandboxActivityOutcome}
    {fields : WorkflowFields} {w : ω} (hname : call.activity ≠ .cleanup) :
    Uncleaned (replied s call reply fields w) := by
  intro e he
  rw [replied_invocations, List.mem_append, List.mem_singleton] at he
  rcases he with he | rfl
  · exact h e he
  · exact hname

theorem unattested_called (h : ¬AttestationRecorded s.invocations) {call : Call}
    {reply : Reply SandboxActivityOutcome} {fields : WorkflowFields} {w : ω}
    (hnew : call.activity = .attest → ¬reports reply [.attested, .duplicate]) :
    ¬AttestationRecorded (replied s call reply fields w).invocations := by
  rintro ⟨e, he, hname, hreport⟩
  rw [replied_invocations, List.mem_append, List.mem_singleton] at he
  rcases he with he | rfl
  · exact h ⟨e, he, hname, hreport⟩
  · exact hnew hname hreport

theorem attestOutputs_ready {terminal : SandboxWorkflowResult} {capture : SandboxActivityOutcome}
    (hclean : Uncleaned s) (hattest : ¬AttestationRecorded s.invocations)
    (hstatus : terminal.status = .succeeded) (hexecution : ExecutionSucceeded s.invocations)
    (hcapture : OutputsCaptured s.invocations) :
    Exec.Sat (attestOutputs world value terminal capture) s (fun r => Ready (.ok r))
      (fun e => Ready (.error e)) := by
  unfold attestOutputs
  rw [Exec.sat_bind]
  refine sat_callActivity (fun _ => ready_of_stopped hclean hattest not_returned)
    (fun input o fields w => ?_) (fun input cause fields w => ?_)
  · split
    · rename_i hother
      refine ready_of_stopped (hclean.called (by exact fun h => by cases h))
        (unattested_called hattest fun _ => hother) (not_succeeded ?_)
      exact (by decide : Status.failed ≠ .succeeded)
    · rename_i hattested
      refine ⟨hclean.called (by exact fun h => by cases h), .inl ⟨_, rfl, hstatus, ?_⟩⟩
      obtain ⟨c, hc, hcaptured⟩ := hcapture
      exact ⟨hexecution.append _, ⟨c, List.mem_append_left _ hc, hcaptured⟩,
        _, List.mem_append_right _ List.mem_cons_self, rfl, not_not.mp hattested⟩
  · exact ready_of_stopped (hclean.called (by exact fun h => by cases h))
      (unattested_called hattest fun _ => id) not_returned

/-- What the capture and the attestation leave behind. -/
theorem captureOutputs_ready {terminal : SandboxWorkflowResult} (h : Early s)
    (hstatus : terminal.status = .succeeded) (hexecution : ExecutionSucceeded s.invocations) :
    Exec.Sat (captureOutputs world value terminal) s (fun r => Ready (.ok r))
      (fun e => Ready (.error e)) := by
  have hclean : ∀ (input : SandboxActivityInput) reply fields (w : ω),
      Uncleaned (replied s ⟨.captureOutputs, input, 300, some 30⟩ reply fields w) :=
    fun input reply fields w => h.uncleaned.called (fun hname => by cases hname)
  have hattest : ∀ (input : SandboxActivityInput) reply fields (w : ω), ¬AttestationRecorded
      (replied s ⟨.captureOutputs, input, 300, some 30⟩ reply fields w).invocations :=
    fun input reply fields w => unattested_called h.unattested (fun hname => by cases hname)
  unfold captureOutputs
  rw [Exec.sat_bind]
  refine sat_callActivity (fun _ => h.ready not_returned) (fun input o fields w => ?_)
    (fun input cause fields w => ready_of_stopped (hclean _ _ _ _) (hattest _ _ _ _) not_returned)
  split
  · refine ready_of_stopped (hclean _ _ _ _) (hattest _ _ _ _) (not_succeeded ?_)
    exact (by decide : Status.quarantined ≠ .succeeded)
  · split
    · refine ready_of_stopped (hclean _ _ _ _) (hattest _ _ _ _) (not_succeeded ?_)
      exact (by decide : Status.failed ≠ .succeeded)
    · rename_i hcaptured
      exact attestOutputs_ready (hclean _ _ _ _) (hattest _ _ _ _) hstatus (hexecution.append _)
        ⟨_, List.mem_append_right _ List.mem_cons_self, rfl, not_not.mp hcaptured⟩

theorem option_orElse_status {a b : Option SandboxWorkflowResult}
    (ha : ∀ t, a = some t → t.status ≠ .succeeded) (hb : ∀ t, b = some t → t.status ≠ .succeeded) :
    ∀ t, (a <|> b) = some t → t.status ≠ .succeeded := by
  cases a with
  | none => exact hb
  | some a' => exact ha

/-- The body of the `try` leaves the run ready for its cleanup. -/
theorem lifecycle_ready (h : Early s) :
    Exec.Sat (lifecycle world value) s (fun r => Ready (.ok r)) (fun e => Ready (.error e)) := by
  have hraise : ∀ (e : Failure) (s' : RunState ω), Early s' → Ready (.error e) s' :=
    fun e s' hs' => hs'.ready not_returned
  unfold lifecycle
  refine (requireOutcome_keeps (kept_early (by decide)) h).call hraise (fun _ s₁ h₁ => ?_)
  refine (requireOutcome_keeps (kept_early (by decide)) h₁).call hraise (fun _ s₂ h₂ => ?_)
  refine (cancelIfRequested_keeps (kept_early (by decide)) h₂).call hraise (fun cancelled s₃ h₃ => ?_)
  refine (provision_early h₃.1 h₃.2).call hraise (fun terminal s₄ h₄ => ?_)
  refine (cancelIfRequested_keeps (kept_early (by decide)) h₄.1).call hraise (fun again s₅ h₅ => ?_)
  refine (awaitExecution_waited h₅.1 (option_orElse_status h₅.2 h₄.2)).call hraise
    (fun r s₆ h₆ => ?_)
  split
  · rename_i hstatus
    exact captureOutputs_ready h₆.1 hstatus (h₆.2 hstatus)
  · rename_i hstatus
    exact h₆.1.ready (not_succeeded hstatus)

/-- So do the error handlers. -/
theorem recovered_ready (h : Early s) :
    Exec.Sat (Exec.catching (lifecycle world value) (recover value)) s (fun r => Ready (.ok r))
      (fun e => Ready (.error e)) := by
  rw [Exec.sat_catching]
  refine (lifecycle_ready h).mono (fun _ _ hs' => hs') (fun e s' hs' => ?_)
  obtain ⟨hclean, ⟨r, hr, -⟩ | ⟨-, hattest⟩⟩ := hs'
  · cases hr
  · have hfailed : ∀ code, Ready (.ok (failedResult value code)) s' := fun code =>
      ready_of_stopped hclean hattest (not_succeeded (by exact (by decide : Status.failed ≠ .succeeded)))
    cases e with
    | activityError cause => exact hfailed _
    | applicationError type => exact hfailed _
    | other e => exact ready_of_stopped hclean hattest not_returned

/-! ## The `finally` block -/

/-- Honest unless the deletion is what went wrong. -/
def HonestUnless (result : Except Failure SandboxWorkflowResult) (calls : List Called) : Prop :=
  Honest result calls ↔ ¬(Accomplished calls ∧ DeletionUnsettled calls)

/-- No success to account for, and no reconciliation that left the deletion open. -/
theorem honest_of_stopped {result : Except Failure SandboxWorkflowResult} {calls : List Called}
    (hcleaned : ∀ r, result = .ok r → ∃ e ∈ calls, e.call.activity = .cleanup)
    (hstatus : ∀ r, result = .ok r → r.status ≠ .succeeded) (hsettled : ¬DeletionUnsettled calls) :
    HonestUnless result calls := by
  constructor
  · exact fun _ h => hsettled h.2
  · exact fun _ r hr => ⟨hcleaned r hr, fun hsucceeded => absurd hsucceeded (hstatus r hr)⟩

theorem attestationRecorded_append {calls tail : List Called}
    (htail : ∀ e ∈ tail, e.call.activity ≠ .attest) (h : AttestationRecorded (calls ++ tail)) :
    AttestationRecorded calls := by
  obtain ⟨e, he, hname, hreport⟩ := h
  rcases List.mem_append.mp he with he | he
  · exact ⟨e, he, hname, hreport⟩
  · exact absurd hname (htail e he)

/-- The result is left as it was: the deletion decides. -/
theorem honest_of_kept {terminal : Except Failure SandboxWorkflowResult} (h : Ready terminal s)
    {c : Called} {tail : List Called} (hc : c.call.activity = .cleanup)
    (htail : ∀ e ∈ tail, e.call.activity ∈ reconciliations)
    (hdeletion : DeletionConfirmed (s.invocations ++ c :: tail) ↔
      ¬DeletionUnsettled (s.invocations ++ c :: tail)) :
    HonestUnless terminal (s.invocations ++ c :: tail) := by
  have hcleaned : ∃ e ∈ s.invocations ++ c :: tail, e.call.activity = .cleanup :=
    ⟨c, List.mem_append_right _ List.mem_cons_self, hc⟩
  obtain ⟨-, ⟨r, rfl, hsucceeded, haccomplished⟩ | ⟨hstatus, hattest⟩⟩ := h
  · have hall : Accomplished (s.invocations ++ c :: tail) := haccomplished.append _
    constructor
    · exact fun hhonest hbad => hdeletion.mp ((hhonest r rfl).2 hsucceeded).2.2.2 hbad.2
    · intro hgood r' hr'
      have hconfirmed := hdeletion.mpr fun hunsettled => hgood ⟨hall, hunsettled⟩
      exact ⟨hcleaned, fun _ => ⟨hall.1, hall.2.1, hall.2.2, hconfirmed⟩⟩
  · constructor
    · intro _ hbad
      -- neither the cleanup nor a reconciliation attests anything
      refine hattest (attestationRecorded_append (fun e he hname => ?_) hbad.1.2.2)
      rcases List.mem_cons.mp he with rfl | he
      · rw [hc] at hname
        cases hname
      · have hall : ∀ name ∈ reconciliations, name ≠ .attest := by decide
        exact hall _ (htail e he) hname
    · exact fun _ r hr => ⟨hcleaned, fun hsucceeded => absurd hsucceeded (hstatus r hr)⟩

theorem uncleaned_reconciled {tail : List Called}
    (htail : ∀ e ∈ tail, e.call.activity ∈ reconciliations) :
    ∀ e ∈ tail, e.call.activity ≠ .cleanup := by
  have hall : ∀ name ∈ reconciliations, name ≠ .cleanup := by decide
  exact fun e he => hall _ (htail e he)

theorem mapped_status {terminal : Except Failure SandboxWorkflowResult} {failureCode : Identifier} :
    ∀ r, (terminal.map fun _ => failedResult value failureCode) = .ok r →
      r.status ≠ .succeeded := by
  intro r hr
  cases terminal with
  | error e => cases hr
  | ok t =>
    cases hr
    exact (by decide : Status.failed ≠ .succeeded)

/-- The result of a run that has cleaned up: what `finally` made of it, or its own exception. -/
def Settled (s : RunState ω) (result : Except Failure SandboxWorkflowResult) : Prop :=
  HonestUnless result s.invocations

/-- A cleanup that did not go through, whatever followed it, fails the run. -/
theorem failed_settled {terminal : Except Failure SandboxWorkflowResult} (hclean : Uncleaned s)
    {c : Called} {tail : List Called} (hc : c.call.activity = .cleanup)
    (htail : ∀ e ∈ tail, e.call.activity ∈ reconciliations)
    (hsettled : ¬(reports c.reply [.ambiguous] ∧ ∃ r, tail.head? = some r ∧
      r.call.activity ∈ reconciliations ∧ reports r.reply [.ambiguous, .failed]))
    {failureCode : Identifier} {s' : RunState ω}
    (hcalls : s'.invocations = s.invocations ++ c :: tail) :
    Settled s' (terminal.map fun _ => failedResult value failureCode) := by
  unfold Settled
  rw [hcalls]
  refine honest_of_stopped (fun _ _ => ⟨c, List.mem_append_right _ List.mem_cons_self, hc⟩)
    mapped_status fun hunsettled => hsettled ?_
  exact (deletionUnsettled_iff hclean hc (uncleaned_reconciled htail)).mp hunsettled

/-- A cleanup that confirmed the deletion leaves the result as it is. -/
theorem confirmed_settled {terminal : Except Failure SandboxWorkflowResult} (h : Ready terminal s)
    {c : Called} (hc : c.call.activity = .cleanup)
    (hreport : reports c.reply [.cleaned, .absent, .duplicate])
    (hclear : ¬reports c.reply [.ambiguous]) {s' : RunState ω}
    (hcalls : s'.invocations = s.invocations ++ [c]) : Settled s' terminal := by
  have hnone : ∀ e ∈ ([] : List Called), e.call.activity ∈ reconciliations := by
    intro e he
    cases he
  unfold Settled
  rw [hcalls]
  refine honest_of_kept h hc hnone ⟨fun _ hunsettled => ?_, fun _ => ?_⟩
  · exact hclear ((deletionUnsettled_iff h.1 hc (uncleaned_reconciled hnone)).mp hunsettled).1
  · exact (deletionConfirmed_iff h.1 hc (uncleaned_reconciled hnone)).mpr (.inl hreport)

/-- A reconciled cleanup leaves the result as it is, WHATEVER the reconciliation reported. -/
theorem reconciled_settled {terminal : Except Failure SandboxWorkflowResult} (h : Ready terminal s)
    {c r : Called} (hc : c.call.activity = .cleanup) (hambiguous : reports c.reply [.ambiguous])
    (hr : r.call.activity ∈ reconciliations) {o : SandboxActivityOutcome} (hreply : r.reply = .ok o)
    {s' : RunState ω} (hcalls : s'.invocations = s.invocations ++ [c, r]) :
    Settled s' terminal := by
  have htail : ∀ e ∈ [r], e.call.activity ∈ reconciliations := by
    intro e he
    rw [List.mem_singleton.mp he]
    exact hr
  have huncleaned := uncleaned_reconciled htail
  unfold Settled
  rw [hcalls]
  refine honest_of_kept h hc htail ?_
  rw [deletionConfirmed_iff h.1 hc huncleaned, deletionUnsettled_iff h.1 hc huncleaned]
  have hunconfirmed : ¬reports c.reply [.cleaned, .absent, .duplicate] := by
    intro hreport
    cases hc' : c.reply with
    | error cause =>
      rw [hc'] at hreport
      exact hreport
    | ok o' =>
      rw [hc'] at hreport hambiguous
      have houtcome : o'.outcome = .ambiguous := reports_singleton.mp hambiguous
      have hmem : o'.outcome ∈ [Outcome.cleaned, .absent, .duplicate] := hreport
      rw [houtcome] at hmem
      exact absurd hmem (by decide)
  constructor
  · rintro (hreport | ⟨-, r', hhead, -, hsettles⟩) ⟨-, r'', hhead', -, hreports⟩
    · exact hunconfirmed hreport
    · cases hhead
      cases hhead'
      rw [hreply] at hsettles hreports
      exact hsettles hreports
  · intro hnot
    refine .inr ⟨hambiguous, r, rfl, hr, ?_⟩
    rw [hreply]
    exact fun hmem => hnot ⟨hambiguous, r, rfl, hr, by rw [hreply]; exact hmem⟩

/-- **The `finally` block keeps a run honest unless the deletion stays open.** -/
theorem cleanUp_settled {terminal : Except Failure SandboxWorkflowResult} (h : Ready terminal s) :
    Exec.Sat (cleanUp world value terminal) s (fun result s' => Settled s' result)
      (fun e s' => Settled s' (.error e)) := by
  have hnone : ∀ e ∈ ([] : List Called), e.call.activity ∈ reconciliations := by
    intro e he
    cases he
  have hopen : ∀ {c : Called}, ¬(reports c.reply [.ambiguous] ∧ ∃ r, ([] : List Called).head? = some r ∧
      r.call.activity ∈ reconciliations ∧ reports r.reply [.ambiguous, .failed]) := by
    rintro c ⟨-, r, hhead, -⟩
    cases hhead
  -- an error that nobody catches is no result at all
  have huncaught : ∀ (error : Error) (s' : RunState ω), ¬DeletionUnsettled s'.invocations →
      Settled s' (.error (.other error)) :=
    fun error s' hs' => honest_of_stopped (fun r hr => by cases hr) not_returned hs'
  unfold cleanUp cleanSandbox
  rw [Exec.sat_catching, Exec.sat_bind]
  refine sat_callActivity (fun error => huncaught error s (not_unsettled_of_uncleaned h.1))
    (fun input o fields w => ?_)
    (fun input cause fields w => failed_settled h.1 rfl hnone hopen rfl)
  split
  · rename_i hambiguous
    have hreport : reports (.ok o) [.ambiguous] := reports_singleton.mpr hambiguous
    rw [Exec.sat_bind]
    refine sat_reconcileAmbiguous (fun s' hcalls => ⟨fun error => ?_, fun type => ?_⟩)
      (fun call o' s' fields' hname hcalls => ?_) (fun call cause s' fields' hname hcalls => ?_)
    · refine huncaught error s' fun hunsettled => ?_
      rw [hcalls] at hunsettled
      exact hopen ((deletionUnsettled_iff h.1 rfl (uncleaned_reconciled hnone)).mp hunsettled)
    · exact failed_settled h.1 rfl hnone hopen hcalls
    · refine reconciled_settled h (c := ⟨⟨.cleanup, input, value.cleanupTimeoutSeconds, some 30⟩,
        .ok o, fields⟩) (r := ⟨call, .ok o', fields'⟩) rfl hreport hname rfl ?_
      rw [hcalls, replied_invocations, List.append_assoc]
      rfl
    · have hcalls' : s'.invocations = s.invocations ++
          (⟨⟨.cleanup, input, value.cleanupTimeoutSeconds, some 30⟩, .ok o, fields⟩ : Called) ::
            [⟨call, .error cause, fields'⟩] := by
        rw [hcalls, replied_invocations, List.append_assoc]
        rfl
      refine failed_settled h.1 rfl (fun e he => ?_) (fun hbad => ?_) hcalls'
      · rw [List.mem_singleton.mp he]
        exact hname
      · -- an activity error reports nothing
        obtain ⟨-, r, hhead, -, hreports⟩ := hbad
        cases hhead
        exact hreports
  · rename_i hclear
    split
    · rename_i hother
      refine failed_settled h.1 rfl hnone hopen rfl
    · rename_i hconfirmed
      exact confirmed_settled h (c := ⟨⟨.cleanup, input, value.cleanupTimeoutSeconds, some 30⟩,
        .ok o, fields⟩) rfl (not_not.mp hconfirmed)
        (fun hreport => hclear (reports_singleton.mp hreport)) rfl

/-- **Success is honest exactly when no deletion is left open after everything else succeeded**: over
    every world, so whatever the outcomes, the errors, the timeouts and the signals. -/
theorem honest_iff (world : RunWorld ω) (value : SandboxWorkflowInput) (w : ω) :
    let run := runSandbox world value (.start .init w)
    Honest run.1 run.2.invocations ↔
      ¬(Accomplished run.2.invocations ∧ DeletionUnsettled run.2.invocations) := by
  have hstart : Early (Progress.start .init w : RunState ω) := by
    intro e he
    cases he
  have hrun : Exec.Sat (runSandbox world value) (.start .init w)
      (fun r s' => Settled s' (.ok r)) (fun e s' => Settled s' (.error e)) := by
    unfold runSandbox
    rw [Exec.sat_bind, Exec.sat_reify]
    have hfinally : ∀ (terminal : Except Failure SandboxWorkflowResult) (s : RunState ω),
        Ready terminal s → Exec.Sat (do
          let terminal ← cleanUp world value terminal
          Exec.lift terminal) s (fun r s' => Settled s' (.ok r)) (fun e s' => Settled s' (.error e)) := by
      intro terminal s h
      refine (cleanUp_settled h).call (fun _ _ hs' => hs') (fun result s' hs' => ?_)
      rw [Exec.sat_lift]
      exact ⟨fun r hr => hr ▸ hs', fun e he => he ▸ hs'⟩
    exact (recovered_ready hstart).mono (fun _ _ h => hfinally _ _ h) (fun _ _ h => hfinally _ _ h)
  exact hrun.outcome (P := fun result s' => Settled s' result)

end Run

/-! ## A success over a sandbox that is still there -/

def sampleInput : SandboxWorkflowInput where
  tenantRef := ⟨"t", computed⟩
  actorRef := code "actor"
  requestRef := code "request"
  executionId := code "execution"
  workflowId := code "workflow"
  attempt := 1
  executionTimeoutSeconds := 60
  reconciliationTimeoutSeconds := 900
  cleanupTimeoutSeconds := 60
  attempt_ok := first_attempt
  execution_timeout_ok := by decide
  reconciliation_timeout_ok := quarter_hour
  cleanup_timeout_ok := by decide

def sandboxTurn (signals : List Signal) (outcome : Outcome) :
    Turn Signal (Reply SandboxActivityOutcome) := ⟨signals, .ok ⟨outcome, none, none⟩⟩

/-- Everything succeeds, the cleanup is ambiguous, and its reconciliation fails. -/
def sampleTurns : List (Turn Signal (Reply SandboxActivityOutcome)) :=
  [sandboxTurn [] .recorded, sandboxTurn [] .authorized, sandboxTurn [] .provisioned,
   sandboxTurn [] .succeeded, sandboxTurn [] .captured, sandboxTurn [] .attested,
   sandboxTurn [] .ambiguous,
   sandboxTurn [.reconcileSandbox (code "c1")] .ambiguous,
   sandboxTurn [] .failed]

def sampleRun :
    Except Failure SandboxWorkflowResult × RunState (List (Turn Signal (Reply SandboxActivityOutcome))) :=
  runSandbox (World.scripted (sandboxTurn [] .failed)) sampleInput (.start .init sampleTurns)

/-- The run returns `succeeded`, and nothing in it ever confirmed the deletion. -/
theorem success_without_deletion : ¬Honest sampleRun.1 sampleRun.2.invocations := by
  intro h
  have hsucceeded : sampleRun.1.toOption.map (·.status) = some .succeeded := by decide +kernel
  have hcleanups : ∀ e ∈ sampleRun.2.invocations, e.call.activity = .cleanup →
      ¬reports e.reply [.cleaned, .absent, .duplicate] := by decide +kernel
  have hreconciled : ∀ e ∈ sampleRun.2.invocations, e.call.activity ∈ reconciliations →
      reports e.reply [.ambiguous, .failed] := by decide +kernel
  cases hresult : sampleRun.1 with
  | error e =>
    rw [hresult] at hsucceeded
    cases hsucceeded
  | ok r =>
    rw [hresult] at hsucceeded
    have hstatus : r.status = .succeeded := Option.some.inj hsucceeded
    obtain ⟨pre, e, rest, hcalls, hname, hreport | ⟨-, r', hhead, hr', hsettles⟩⟩ :=
      ((h r hresult).2 hstatus).2.2.2
    · refine hcleanups e ?_ hname hreport
      rw [hcalls]
      exact List.mem_append_right _ List.mem_cons_self
    · have hmem : r' ∈ sampleRun.2.invocations := by
        rw [hcalls]
        exact List.mem_append_right _ (List.mem_cons_of_mem _ (List.mem_of_mem_head? hhead))
      have hopen := hreconciled r' hmem hr'
      cases hreply : r'.reply with
      | error cause =>
        rw [hreply] at hsettles
        exact hsettles
      | ok o =>
        rw [hreply] at hsettles hopen
        exact hsettles hopen

end SandboxTemporal

end Aegis
