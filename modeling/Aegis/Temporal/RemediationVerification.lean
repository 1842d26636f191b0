/-
  A FAILED VERIFICATION AND ITS COMPENSATION.

  Three layers carry a negative verdict: `EffectService.verify` records VERIFICATION_FAILED and RAISES,
  the activity wrapper turns that exception into a non-retryable application error, and the workflow
  rolls back on the OUTCOME `verification_failed`, which nothing below it ever returns.

  `serviceWorld` puts the service under the workflow: the verify activity is a list of attempts, each a
  call of the service in the state it finds, whose answer may be lost; other calls of the services come
  between.  The rollback is never called (`compensation_iff`).
-/
import Mathlib
import Aegis.Remediation.DryRun
import Aegis.Temporal.RemediationEffects

namespace Aegis

namespace RemediationTemporal

open Workflow Temporal
open Remediation (State Ports Op EffectRequest ActionReceipt Citation VerificationRecord
  literalIdentifier)

/-! ## The activity wrapper -/

/-- How one attempt of an activity ends for the server. -/
inductive Attempt where
  | returned (outcome : RemediationActivityOutcome)
  | refused (type : Identifier)
  | transient (type : Identifier)
  | lost

/-- The `except` clauses of `_invoke`, by the class of the exception. -/
def invokeError : ErrorKind → Attempt
  | .policyDenied => .refused (literalIdentifier "AuthorizationDenied")
  | .approvalDenied => .refused (literalIdentifier "ApprovalDenied")
  | .approvalExpired => .refused (literalIdentifier "ApprovalExpired")
  | .approvalRevoked => .refused (literalIdentifier "ApprovalRevoked")
  | .effectConflict => .refused (literalIdentifier "EffectConflict")
  | .verificationFailed => .refused (literalIdentifier "VerificationFailed")
  | .payloadRejected => .refused (literalIdentifier "PayloadRejected")
  | .idempotencyConflict => .refused (literalIdentifier "IdempotencyConflict")
  | .integrityFailure => .refused (literalIdentifier "IntegrityFailure")
  | .effectAmbiguous => .returned ⟨.effectAmbiguous, none⟩
  | .budgetExhausted => .transient (literalIdentifier "BudgetExhausted")
  | .modelProviderError => .transient (literalIdentifier "ModelProviderError")
  | .reconciliationRequired => .transient (literalIdentifier "ReconciliationRequired")
  | .effectsDisabled => .transient (literalIdentifier "EffectsDisabled")
  | .concurrencyConflict => .transient (literalIdentifier "ConcurrencyConflict")
  | .messageClaimConflict => .transient (literalIdentifier "MessageClaimConflict")
  | .ambiguousTransportError => .transient (literalIdentifier "AmbiguousTransportError")
  | .sandboxRejected => .transient (literalIdentifier "SandboxRejected")
  | .sandboxUnavailable => .transient (literalIdentifier "SandboxUnavailable")
  | .sandboxAmbiguous => .transient (literalIdentifier "SandboxAmbiguous")
  | .authenticationFailed => .transient (literalIdentifier "AuthenticationFailed")
  | .identityUnavailable => .transient (literalIdentifier "IdentityUnavailable")
  | .evidenceIsolationViolation => .transient (literalIdentifier "EvidenceIsolationViolation")
  | .evidenceUnavailable => .transient (literalIdentifier "EvidenceUnavailable")
  | .connectorRejected => .transient (literalIdentifier "ConnectorRejected")
  | .orchestrationFailure => .transient (literalIdentifier "OrchestrationFailure")
  | .typeError => .refused (literalIdentifier "FrameworkDefect")
  | .valueError => .refused (literalIdentifier "FrameworkDefect")
  | .keyError => .refused (literalIdentifier "FrameworkDefect")
  | .indexError => .refused (literalIdentifier "FrameworkDefect")
  | .validationError => .refused (literalIdentifier "FrameworkDefect")

/-- `_invoke` around the verify operation; `report` is the outcome the operation makes of a record. -/
def invokeVerify (report : VerificationRecord → RemediationActivityOutcome) :
    Except Error Remediation.Result → Attempt
  | .ok (.verification record) => .returned (report record)
  | .ok _ => .refused (literalIdentifier "FrameworkDefect")
  | .error e => invokeError e.kind

/-! ## The service under the workflow -/

/-- An attempt of the verify activity: what others do with the services before it, the arguments the
    operation passes on, and whether its answer is lost. -/
structure VerifyAttempt where
  others : List Op
  identity : IdentityContext
  request : EffectRequest
  effectReceipt : ActionReceipt
  freshEvidence : List Citation
  lost : Bool

/-- One await: the signals, what others do with the services, the attempts if it is the verify activity
    and the reply if it is another one. -/
structure ServiceTurn where
  signals : List Signal
  others : List Op
  attempts : List VerifyAttempt
  reply : Reply RemediationActivityOutcome

/-- The services, the turns to come and the calls of `verify` so far. -/
structure ServiceState where
  services : State
  turns : List ServiceTurn
  verifications : List Remediation.HistoryEntry

section World

variable (sha : Sha256) (ports : Ports) (report : VerificationRecord → RemediationActivityOutcome)

/-- The call of an attempt, from the state it finds. -/
def attemptEntry (services : State) (a : VerifyAttempt) : Remediation.HistoryEntry :=
  Machine.entry (Remediation.step sha ports) (Remediation.run sha ports services a.others)
    (.verify a.identity a.request a.effectReceipt a.freshEvidence)

/-- The attempts of an activity: a returned outcome or a non-retryable error ends it, a transient error
    or a lost answer leads to the next attempt if there is one. -/
def runAttempts : List VerifyAttempt → State → Reply RemediationActivityOutcome × List Remediation.HistoryEntry
  | [], _ => (.error none, [])
  | a :: rest, services =>
    let entry := attemptEntry sha ports services a
    let later := runAttempts rest entry.after
    match if a.lost = true then .lost else invokeVerify report entry.result with
    | .returned outcome => (.ok outcome, [entry])
    | .refused type => (.error (some type), [entry])
    | .transient type => (if rest.isEmpty = true then .error (some type) else later.1,
        entry :: later.2)
    | .lost => (later.1, entry :: later.2)

/-- The services after the calls of `verify`. -/
def servicesAfter (services : State) (entries : List Remediation.HistoryEntry) : State :=
  entries.getLast?.elim services (·.after)

def idleTurn : ServiceTurn := ⟨[], [], [], .error none⟩

/-- `maximum_attempts`. -/
def maximumAttempts : Nat := 3

/-- The workflow's world over the services. -/
def serviceWorld : RunWorld ServiceState where
  activity := fun call w =>
    let turn := w.turns.head?.getD idleTurn
    let services := Remediation.run sha ports w.services turn.others
    match call.activity with
    | .verify =>
      let done := runAttempts sha ports report (turn.attempts.take maximumAttempts) services
      ((turn.signals, done.1),
        { services := servicesAfter services done.2, turns := w.turns.tail,
          verifications := w.verifications ++ done.2 })
    | _ => ((turn.signals, turn.reply), { w with services, turns := w.turns.tail })
  timer := fun _ w =>
    let turn := w.turns.head?.getD idleTurn
    (turn.signals,
      { w with services := Remediation.run sha ports w.services turn.others, turns := w.turns.tail })

end World

/-! ## A record is returned only when it is satisfied -/

/-- `verify` raises after it has recorded a negative verdict. -/
theorem verify_satisfied (sha : Sha256) (ports : Ports) (identity : IdentityContext)
    (request : EffectRequest) (effectReceipt : ActionReceipt) (freshEvidence : List Citation)
    (s : State) :
    Exec.Sat (Remediation.verify sha ports identity request effectReceipt freshEvidence) s
      (fun record _ => record.postconditionsSatisfied = true) (fun _ _ => True) := by
  unfold Remediation.verify
  refine Exec.Sat.skip (fun scope _ => Exec.Sat.skip (fun intent _ => ?_))
  refine Exec.Sat.skip (fun _ _ => Exec.Sat.skip (fun requested _ => ?_))
  refine Exec.Sat.skip (fun record _ => Exec.Sat.skip (fun _ _ => ?_))
  exact Exec.Sat.check (fun _ => trivial) (fun hsatisfied => hsatisfied)

theorem verify_call_satisfied {sha : Sha256} {ports : Ports} {identity : IdentityContext}
    {request : EffectRequest} {effectReceipt : ActionReceipt} {freshEvidence : List Citation}
    {s : State} {record : VerificationRecord}
    (h : (Remediation.step sha ports s
      (.verify identity request effectReceipt freshEvidence)).1 = .ok (.verification record)) :
    record.postconditionsSatisfied = true := by
  have hcall : Exec.Sat (Op.body sha ports (.verify identity request effectReceipt freshEvidence)) s
      (fun result _ => ∀ record, result = .verification record →
        record.postconditionsSatisfied = true) (fun _ _ => True) := by
    show Exec.Sat (Remediation.verify sha ports identity request effectReceipt freshEvidence >>=
      fun record => pure (Remediation.Result.verification record)) s _ _
    rw [Exec.sat_bind]
    refine (verify_satisfied _ _ _ _ _ _ s).mono (fun record _ hrecord record' heq => ?_)
      (fun _ _ _ => trivial)
    cases heq
    exact hrecord
  exact hcall.ok (Prod.ext h rfl) record rfl

section World

variable {sha : Sha256} {ports : Ports} {report : VerificationRecord → RemediationActivityOutcome}

/-- What `_invoke` returns for an exception is an ambiguous effect or nothing. -/
theorem invokeError_returned {kind : ErrorKind} {outcome : RemediationActivityOutcome}
    (h : invokeError kind = .returned outcome) : outcome.outcome = .effectAmbiguous := by
  cases kind <;> cases h
  rfl

variable (hreport : ∀ record, record.postconditionsSatisfied = true →
  (report record).outcome = .verified)

include hreport

/-- An attempt that returns reports a verified or an ambiguous effect. -/
theorem attempt_returned {services : State} {a : VerifyAttempt}
    {outcome : RemediationActivityOutcome}
    (h : invokeVerify report (attemptEntry sha ports services a).result = .returned outcome) :
    outcome.outcome ≠ .verificationFailed := by
  cases hresult : (attemptEntry sha ports services a).result with
  | error e =>
    rw [hresult] at h
    rw [invokeError_returned h]
    decide
  | ok result =>
    rw [hresult] at h
    cases result with
    | verification record =>
      cases h
      rw [hreport record (verify_call_satisfied hresult)]
      decide
    | projection projection => cases h
    | view view => cases h
    | receipt receipt => cases h
    | none => cases h

/-- No sequence of attempts reports a failed verification. -/
theorem runAttempts_reply (attempts : List VerifyAttempt) (services : State) :
    ¬reports (runAttempts sha ports report attempts services).1 [.verificationFailed] := by
  induction attempts generalizing services with
  | nil => exact id
  | cons a rest ih =>
    have hlater := ih (attemptEntry sha ports services a).after
    cases hattempt : (if a.lost = true then Attempt.lost
        else invokeVerify report (attemptEntry sha ports services a).result) with
    | returned outcome =>
      simp only [runAttempts, hattempt, reports_singleton]
      split at hattempt
      · cases hattempt
      · exact attempt_returned hreport hattempt
    | refused type =>
      simp only [runAttempts, hattempt]
      exact id
    | transient type =>
      simp only [runAttempts, hattempt]
      split
      · exact id
      · exact hlater
    | lost =>
      simp only [runAttempts, hattempt]
      exact hlater

end World

/-! ## The workflow without a failed outcome -/

section Run

variable {ω : Type} {world : RunWorld ω} {value : RemediationWorkflowInput} {s : RunState ω}

/-- The rollback was not called. -/
def NoRollback (s : RunState ω) : Prop := ∀ e ∈ s.invocations, e.call.activity ≠ .rollback

theorem kept_noRollback {names : List Activity} (h : .rollback ∉ names) :
    KeptBy (NoRollback (ω := ω)) names :=
  kept_calls fun _ hcall _ _ heq => h (heq ▸ hcall)

/-- The verification never comes back with the outcome `verification_failed`. -/
def NeverFails (world : RunWorld ω) : Prop :=
  ∀ call w, call.activity = .verify →
    ¬reports (world.activity call w).1.2 [.verificationFailed]

theorem verifyEffect_noRollback (hworld : NeverFails world) (hs : NoRollback s)
    (effect : RemediationActivityOutcome) :
    Exec.Sat (verifyEffect world value effect) s (fun _ => NoRollback) (fun _ => NoRollback) := by
  have hkept : KeptBy (NoRollback (ω := ω)) [.verify] := kept_noRollback (by decide)
  have hcalled : ∀ input reply fields (w : ω),
      NoRollback (replied s ⟨.verify, input⟩ reply fields w) := fun input reply fields w =>
    hkept.called ⟨.verify, input⟩ List.mem_cons_self s reply fields w hs
  unfold verifyEffect
  rw [Exec.sat_bind]
  refine sat_callActivity (fun _ _ => hs) (fun input signals o w _ hanswer => ?_)
    (fun input signals cause w _ => hcalled _ _ _ _)
  split
  · exact hcalled _ _ _ _
  · split
    · exact hcalled _ _ _ _
    · -- the rollback would need an outcome the world never gives
      rename_i hfailed
      have hnever := hworld ⟨.verify, input⟩ s.world rfl
      rw [hanswer, reports_singleton] at hnever
      exact absurd (not_not.mp hfailed) hnever

/-- Below such a world no run rolls back. -/
theorem run_noRollback (hworld : NeverFails world) (value : RemediationWorkflowInput) (w : ω) :
    NoRollback (runRemediation world value (.start .init w)).2 := by
  refine Exec.Sat.state (runRemediation_keeps (kept_noRollback (by decide)) ?_ ?_)
  · exact fun effect s hs => verifyEffect_noRollback hworld hs effect
  · exact fun e he => absurd he List.not_mem_nil

end Run

/-! ## Every run over the services -/

/-- A call of `verify` recorded a negative verdict. -/
def RecordsFailure (e : Remediation.HistoryEntry) : Prop :=
  ∃ key, ((e.before.facts key).countP fun fact => fact.factType = .verificationFailed) <
    ((e.after.facts key).countP fun fact => fact.factType = .verificationFailed)

/-- The workflow rolls back, and ends rolled back or escalated unless the rollback itself fails. -/
def Compensated (result : Except Failure RemediationWorkflowResult) (calls : List Called) : Prop :=
  ∃ e ∈ calls, e.call.activity = .rollback ∧
    (failed e.reply ∨ ∃ r, result = .ok r ∧ r.status ∈ [Status.rolledBack, .escalated])

/-- **A negative verdict is never compensated.**  In every run over the services, "a recorded failure
    of the verification is followed by compensation" holds only where none is recorded: for the
    operation that reports satisfied records as verified, whatever the services, the attempts, the lost
    answers and the signals. -/
theorem compensation_iff {sha : Sha256} {ports : Ports}
    {report : VerificationRecord → RemediationActivityOutcome}
    (hreport : ∀ record, record.postconditionsSatisfied = true →
      (report record).outcome = .verified)
    (value : RemediationWorkflowInput) (services : State) (turns : List ServiceTurn) :
    let run := runRemediation (serviceWorld sha ports report) value
      (.start .init ⟨services, turns, []⟩)
    ((∃ e ∈ run.2.world.verifications, RecordsFailure e) →
        Compensated run.1 run.2.invocations) ↔
      ¬∃ e ∈ run.2.world.verifications, RecordsFailure e := by
  have hnever : NeverFails (serviceWorld sha ports report) := by
    intro call w hcall
    simp only [serviceWorld, hcall]
    exact runAttempts_reply hreport _ _
  have hrollback := run_noRollback hnever value ⟨services, turns, []⟩
  constructor
  · intro hcompensated hrecorded
    obtain ⟨e, he, hname, -⟩ := hcompensated hrecorded
    exact hrollback e he hname
  · intro hnone hrecorded
    exact absurd hrecorded hnone

/-! ## A negative verdict -/

/-- The services once action `a` of the sample plan is approved, dry run and executed. -/
def executedServices : State :=
  Remediation.run .constant (Remediation.samplePorts false) Remediation.sampleStart
    (Remediation.sampleOps ++ [Remediation.sampleExecute])

def executedReceipt : ActionReceipt where
  tenantId := literalIdentifier "t"
  planId := literalIdentifier "p"
  actionId := literalIdentifier "a"
  operationId := literalIdentifier "o2"
  idempotencyKey := literalIdentifier "k"
  fenceToken := Remediation.fenceOf .constant (Remediation.samplePlan Remediation.someone)
  attempt := 1
  outcome := .succeeded
  providerReceiptRef := none
  targetFingerprint := zeroHash
  recordedAt := ⟨10, 0⟩
  detailCode := literalIdentifier "ok"
  attempt_ok := first_attempt

/-- The one attempt; what it observes is not later than the receipt. -/
def verdictAttempt : VerifyAttempt where
  others := []
  identity := Remediation.sampleIdentity "x"
  request := Remediation.sampleRequest "a" "verify:r:p" 9
  effectReceipt := executedReceipt
  freshEvidence := [⟨literalIdentifier "e", "l", zeroHash, none, Remediation.short_locator, Remediation.no_page⟩]
  lost := false

def serviceTurn (signals : List Signal) (outcome : Outcome) : ServiceTurn :=
  ⟨signals, [], [], .ok ⟨outcome, none⟩⟩

def verdictTurns : List ServiceTurn :=
  [serviceTurn [] .recorded, serviceTurn [.approvalDecision (literalIdentifier "c1")] .recorded,
   serviceTurn [] .granted, serviceTurn [] .preflightSucceeded, serviceTurn [] .effectSucceeded,
   ⟨[], [], [verdictAttempt], .error none⟩]

def verdictInput : RemediationWorkflowInput :=
  { sampleInput with
    runId := literalIdentifier "r", planRef := literalIdentifier "p",
    actionRef := literalIdentifier "a" }

def reportVerified (record : VerificationRecord) : RemediationActivityOutcome :=
  ⟨.verified, some record.verificationId⟩

def verdictRun : Except Failure RemediationWorkflowResult × RunState ServiceState :=
  runRemediation (serviceWorld .constant (Remediation.samplePorts false) reportVerified) verdictInput
    (.start .init ⟨executedServices, verdictTurns, []⟩)

/-- The attempt records the negative verdict. -/
theorem verdict_recorded : ∃ e ∈ verdictRun.2.world.verifications, RecordsFailure e := by
  have hcount : (verdictRun.2.world.verifications.any fun e => decide
      (((e.before.facts ("t", "p")).countP fun fact => fact.factType = .verificationFailed) <
        ((e.after.facts ("t", "p")).countP fun fact => fact.factType = .verificationFailed)))
      = true := by decide +kernel
  obtain ⟨e, he, hless⟩ := List.any_eq_true.mp hcount
  exact ⟨e, he, ("t", "p"), of_decide_eq_true hless⟩

/-- The run meets the hypothesis and records a failure, so the equivalence refutes its compensation. -/
theorem compensation_iff_verdict :
    (∃ e ∈ verdictRun.2.world.verifications, RecordsFailure e) ∧
      (((∃ e ∈ verdictRun.2.world.verifications, RecordsFailure e) →
        Compensated verdictRun.1 verdictRun.2.invocations) ↔
          ¬∃ e ∈ verdictRun.2.world.verifications, RecordsFailure e) :=
  ⟨verdict_recorded,
    compensation_iff (fun _ _ => rfl) verdictInput executedServices verdictTurns⟩

/-- The verdict is recorded, the run ends failed, and the rollback was not called. -/
theorem verdict_not_compensated :
    (∃ e ∈ verdictRun.2.world.verifications, RecordsFailure e) ∧
      verdictRun.1.toOption.map (fun r => (r.status, r.failureCode.map Subtype.val)) =
        some (.failed, some "verificationfailed") ∧
      ¬Compensated verdictRun.1 verdictRun.2.invocations := by
  refine ⟨verdict_recorded, by decide +kernel, ?_⟩
  rintro ⟨e, he, hname, -⟩
  have hnever : ∀ e ∈ verdictRun.2.invocations, e.call.activity ≠ .rollback := by decide +kernel
  exact hnever e he hname

end RemediationTemporal

end Aegis
