/-
  THE REMEDIATION WORKFLOW: approval, preflight, effect, verification, rollback.

  `runRemediation` is the workflow's `run`: a sequence of activities, a wait for a human decision, a
  wait for a reconciliation, and a look at the cancel command BETWEEN the stages and in the handler of
  activity errors.  Signals are deduplicated by their command; approval and reconciliation commands
  queue up, one cancel command is kept.

  Every authoritative change is an activity, so what a run has done is its list of invocations.
-/
import Mathlib
import Aegis.Temporal.Base
import Aegis.Remediation.Services

namespace Aegis

namespace RemediationTemporal

open Workflow Temporal
open Remediation (literalIdentifier)

/-! ## Messages -/

structure RemediationWorkflowInput where
  tenantRef : OpaqueReference
  actorRef : Identifier
  requestRef : Identifier
  runId : Identifier
  planRef : Identifier
  actionRef : Identifier
  workflowId : Identifier
  approvalTimeoutSeconds : Nat
  reconciliationTimeoutSeconds : Nat
  approval_timeout_ok : 60 ≤ approvalTimeoutSeconds ∧ approvalTimeoutSeconds ≤ 604800
  reconciliation_timeout_ok : 30 ≤ reconciliationTimeoutSeconds ∧
    reconciliationTimeoutSeconds ≤ 86400

structure RemediationActivityInput where
  tenantRef : OpaqueReference
  actorRef : Identifier
  requestRef : Identifier
  runId : Identifier
  planRef : Identifier
  actionRef : Identifier
  operationId : Identifier
  commandRef : Option Identifier

/-- The outcomes an activity may report. -/
inductive Outcome where
  | recorded | pending | granted | denied | expired | revoked | preflightSucceeded
  | effectSucceeded | effectFailed | effectAmbiguous | reconciled | verified | verificationFailed
  | rolledBack | escalated | cancelled | duplicate
deriving DecidableEq, Repr

structure RemediationActivityOutcome where
  outcome : Outcome
  resultRef : Option Identifier
deriving DecidableEq

/-- How a workflow can end. -/
inductive Status where
  | denied | expired | revoked | cancelled | verified | rolledBack | escalated | failed
deriving DecidableEq, Repr

structure RemediationWorkflowResult where
  runId : Identifier
  planRef : Identifier
  status : Status
  resultRef : Option Identifier
  failureCode : Option Identifier
deriving DecidableEq

/-- The activities, by the name they are registered under. -/
inductive Activity where
  | requestApproval | loadApprovalDecision | preflight | execute | reconcile | verify | rollback
  | cancel | expire | escalate
deriving DecidableEq, Repr

def Activity.name : Activity → String
  | .requestApproval => "aegis.remediation.request_approval"
  | .loadApprovalDecision => "aegis.remediation.load_approval_decision"
  | .preflight => "aegis.remediation.preflight"
  | .execute => "aegis.remediation.execute"
  | .reconcile => "aegis.remediation.reconcile"
  | .verify => "aegis.remediation.verify"
  | .rollback => "aegis.remediation.rollback"
  | .cancel => "aegis.remediation.cancel"
  | .expire => "aegis.remediation.expire"
  | .escalate => "aegis.remediation.escalate"

structure Call where
  activity : Activity
  input : RemediationActivityInput

/-! ## Signals -/

inductive Signal where
  | approvalDecision (commandRef : Identifier)
  | reconcileEffect (commandRef : Identifier)
  | requestCancel (commandRef : Identifier)
deriving DecidableEq

/-- The workflow's own fields.  `seenCommands` is a set; a command is added only when it is new. -/
structure WorkflowFields where
  approvalCommands : List Identifier
  reconciliationCommands : List Identifier
  seenCommands : List Identifier
  cancelCommand : Option Identifier
deriving DecidableEq

def WorkflowFields.init : WorkflowFields := ⟨[], [], [], none⟩

/-- The signal handlers. -/
def handle (f : WorkflowFields) : Signal → WorkflowFields
  | .approvalDecision commandRef =>
    if commandRef ∈ f.seenCommands ∨ 32 ≤ f.seenCommands.length then f
    else { f with
      seenCommands := commandRef :: f.seenCommands
      approvalCommands := f.approvalCommands ++ [commandRef] }
  | .reconcileEffect commandRef =>
    if commandRef ∈ f.seenCommands ∨ 32 ≤ f.seenCommands.length then f
    else { f with
      seenCommands := commandRef :: f.seenCommands
      reconciliationCommands := f.reconciliationCommands ++ [commandRef] }
  | .requestCancel commandRef =>
    if commandRef ∈ f.seenCommands ∨ f.cancelCommand.isSome = true then f
    else { f with
      seenCommands := commandRef :: f.seenCommands
      cancelCommand := some commandRef }

/-! ## The workflow -/

/-- The state of a run. -/
abbrev RunState (ω : Type) : Type :=
  Progress Call (Reply RemediationActivityOutcome) WorkflowFields ω

/-- What surrounds a run. -/
abbrev RunWorld (ω : Type) : Type := World Signal Call (Reply RemediationActivityOutcome) ω

abbrev Flow (ω α : Type) : Type := Exec Failure (RunState ω) α

/-- `_input`. -/
def activityInput (value : RemediationWorkflowInput) (operation : String)
    (commandRef : Option Identifier) : Except Failure RemediationActivityInput :=
  match Identifier.parse "RemediationActivityInput.operation_id"
      (operation ++ ":" ++ value.runId.val ++ ":" ++ value.planRef.val) with
  | .error e => .error (.other e)
  | .ok operationId =>
    .ok { tenantRef := value.tenantRef, actorRef := value.actorRef, requestRef := value.requestRef,
          runId := value.runId, planRef := value.planRef, actionRef := value.actionRef, operationId,
          commandRef }

def integrityFailure : Failure := .applicationError (literalIdentifier "IntegrityFailure")

variable {ω : Type}

section Run

variable (world : RunWorld ω) (value : RemediationWorkflowInput)

/-- `_activity`, on an input built first. -/
def callActivity (name : Activity) (operation : String) (commandRef : Option Identifier) :
    Flow ω RemediationActivityOutcome := do
  let input ← Exec.lift (activityInput value operation commandRef)
  activity handle world ⟨name, input⟩

/-- `_require`. -/
def requireOutcome (name : Activity) (operation : String) (commandRef : Option Identifier)
    (expected : List Outcome) : Flow ω RemediationActivityOutcome := do
  let outcome ← callActivity world value name operation commandRef
  Exec.require (outcome.outcome ∈ expected) integrityFailure
  pure outcome

/-- A result of this run. -/
def resultOf (status : Status) (resultRef failureCode : Option Identifier) :
    RemediationWorkflowResult :=
  { runId := value.runId, planRef := value.planRef, status, resultRef, failureCode }

/-- `_cancel_if_requested`. -/
def cancelIfRequested : Flow ω (Option RemediationWorkflowResult) := do
  let s ← Exec.read
  match s.fields.cancelCommand with
  | none => pure none
  | some command => do
    let _ ← requireOutcome world value .cancel "cancel" (some command) [.cancelled, .duplicate]
    pure (some (resultOf value .cancelled none none))

/-- `cancelled = await _cancel_if_requested(value)`, and on with `next` if there was none. -/
def unlessCancelled (next : Flow ω RemediationWorkflowResult) : Flow ω RemediationWorkflowResult := do
  match ← cancelIfRequested world value with
  | some result => pure result
  | none => next

/-- `_escalate`. -/
def escalate (failureCode : Identifier) : Flow ω RemediationWorkflowResult := do
  let escalated ← requireOutcome world value .escalate ("escalate-" ++ failureCode.val) none
    [.escalated, .duplicate]
  pure (resultOf value .escalated escalated.resultRef (some failureCode))

/-- `self._approval_commands.pop(0)`. -/
def popApproval : Flow ω Identifier := do
  let s ← Exec.read
  match s.fields.approvalCommands with
  | [] => Exec.raise (.other ⟨.indexError, "pop from empty list"⟩)
  | command :: rest => do
    assign fun f => { f with approvalCommands := rest }
    pure command

/-- `self._reconciliation_commands.pop(0)`. -/
def popReconciliation : Flow ω Identifier := do
  let s ← Exec.read
  match s.fields.reconciliationCommands with
  | [] => Exec.raise (.other ⟨.indexError, "pop from empty list"⟩)
  | command :: rest => do
    assign fun f => { f with reconciliationCommands := rest }
    pure command

/-- The rollback stage. -/
def rollBack : Flow ω RemediationWorkflowResult := do
  let rollback ← callActivity world value .rollback "rollback" none
  if rollback.outcome = .rolledBack then
    pure (resultOf value .rolledBack rollback.resultRef
      (some (literalIdentifier "verification_failed")))
  else escalate world value (literalIdentifier "rollback_failed")

/-- The verification stage, after an effect. -/
def verifyEffect (effect : RemediationActivityOutcome) : Flow ω RemediationWorkflowResult := do
  let verification ← callActivity world value .verify "verify" none
  if verification.outcome = .verified then
    pure (resultOf value .verified (verification.resultRef <|> effect.resultRef) none)
  else if verification.outcome ≠ .verificationFailed then Exec.raise integrityFailure
  else rollBack world value

/-- The reconciliation of an ambiguous effect. -/
def reconcileEffect : Flow ω RemediationWorkflowResult := do
  let met ← waitCondition handle world
    (fun f => !f.reconciliationCommands.isEmpty || f.cancelCommand.isSome)
    value.reconciliationTimeoutSeconds
  if met = false then escalate world value (literalIdentifier "reconciliation_timeout")
  else unlessCancelled world value do
    let command ← popReconciliation
    let effect ← callActivity world value .reconcile "reconcile" (some command)
    if effect.outcome ≠ .reconciled then
      escalate world value (literalIdentifier "reconciliation_inconclusive")
    else unlessCancelled world value (verifyEffect world value effect)

/-- The execution stage. -/
def executeEffect : Flow ω RemediationWorkflowResult := do
  let effect ← callActivity world value .execute "execute" none
  if effect.outcome = .effectAmbiguous then reconcileEffect world value
  else if effect.outcome ∉ [Outcome.effectSucceeded, .duplicate] then
    escalate world value (literalIdentifier "effect_failed")
  else unlessCancelled world value (verifyEffect world value effect)

/-- The preflight stage. -/
def preflightEffect : Flow ω RemediationWorkflowResult := do
  let _ ← requireOutcome world value .preflight "preflight" none [.preflightSucceeded, .duplicate]
  unlessCancelled world value (executeEffect world value)

/-- The end of a denied, expired or revoked approval. -/
def refusal : Outcome → Option Status
  | .denied => some .denied
  | .expired => some .expired
  | .revoked => some .revoked
  | _ => none

/-- What becomes of the decision that was loaded. -/
def followDecision (decision : RemediationActivityOutcome) : Flow ω RemediationWorkflowResult :=
  match refusal decision.outcome with
  | some status => pure (resultOf value status none none)
  | none =>
    if decision.outcome ∉ [Outcome.granted, .duplicate] then Exec.raise integrityFailure
    else unlessCancelled world value (preflightEffect world value)

/-- The decision behind an approval signal. -/
def loadApproval : Flow ω RemediationWorkflowResult := do
  let command ← popApproval
  let decision ← callActivity world value .loadApprovalDecision "load-approval" (some command)
  followDecision world value decision

/-- After the approval wait: the condition came true, or the approval is expired. -/
def afterWait (met : Bool) : Flow ω RemediationWorkflowResult :=
  if met = false then do
    let _ ← requireOutcome world value .expire "expire" none [.expired, .duplicate]
    pure (resultOf value .expired none none)
  else unlessCancelled world value (loadApproval world value)

/-- What the approval wait waits for. -/
def awake (f : WorkflowFields) : Bool := !f.approvalCommands.isEmpty || f.cancelCommand.isSome

/-- The body of the `try`. -/
def lifecycle : Flow ω RemediationWorkflowResult := do
  let _ ← requireOutcome world value .requestApproval "request-approval" none
    [.recorded, .pending, .duplicate]
  let met ← waitCondition handle world awake value.approvalTimeoutSeconds
  afterWait world value met

/-- `_safe_code`. -/
def failureCode (value : Identifier) : Identifier :=
  safeCode 64 (literalIdentifier "unknown_failure") value

/-- The result of a run whose activity failed, `except ActivityError`. -/
def failedResult (cause : Option Identifier) : RemediationWorkflowResult :=
  resultOf value .failed none
    (some (cause.elim (literalIdentifier "activity_failure") failureCode))

/-- The cancellation an activity error falls back to: an `ActivityError` of its own is no result, any
    other exception leaves the workflow. -/
def cancelAfterError : Flow ω (Option RemediationWorkflowResult) :=
  Exec.catching (cancelIfRequested world value) fun e =>
    match e with
    | .activityError _ => pure none
    | e => Exec.raise e

/-- The `except` clauses. -/
def recover : Failure → Flow ω RemediationWorkflowResult
  | .activityError cause => do
    match ← cancelAfterError world value with
    | some result => pure result
    | none => pure (failedResult value cause)
  | .applicationError type => pure (resultOf value .failed none (some (failureCode type)))
  | .other e => Exec.raise (.other e)

/-- `run`. -/
def runRemediation : Flow ω RemediationWorkflowResult :=
  Exec.catching (lifecycle world value) (recover world value)

end Run

/-! ## Rules -/

section Rules

variable {world : RunWorld ω} {value : RemediationWorkflowInput} {s : RunState ω}

/-- A call is refused for its input, or made. -/
theorem sat_callActivity {name : Activity} {operation : String} {commandRef : Option Identifier}
    {Q : RemediationActivityOutcome → RunState ω → Prop} {R : Failure → RunState ω → Prop}
    (hinvalid : ∀ e, activityInput value operation commandRef = .error e → R e s)
    (hok : ∀ input signals o w, activityInput value operation commandRef = .ok input →
      world.activity ⟨name, input⟩ s.world = ((signals, .ok o), w) →
      Q o (replied s ⟨name, input⟩ (.ok o) (handleAll handle s.fields signals) w))
    (herror : ∀ input signals cause w,
      world.activity ⟨name, input⟩ s.world = ((signals, .error cause), w) →
      R (.activityError cause)
        (replied s ⟨name, input⟩ (.error cause) (handleAll handle s.fields signals) w)) :
    Exec.Sat (callActivity world value name operation commandRef) s Q R := by
  unfold callActivity
  refine Exec.Sat.attempt hinvalid (fun input hinput => ?_)
  exact sat_activity (fun signals o w => hok input signals o w hinput) (herror input)

/-- `_require` raises when the outcome is not an expected one. -/
theorem sat_requireOutcome {name : Activity} {operation : String} {commandRef : Option Identifier}
    {expected : List Outcome}
    {Q : RemediationActivityOutcome → RunState ω → Prop} {R : Failure → RunState ω → Prop}
    (hinvalid : ∀ e, activityInput value operation commandRef = .error e → R e s)
    (hok : ∀ input signals o w, world.activity ⟨name, input⟩ s.world = ((signals, .ok o), w) →
      o.outcome ∈ expected →
      Q o (replied s ⟨name, input⟩ (.ok o) (handleAll handle s.fields signals) w))
    (hother : ∀ input signals o w, world.activity ⟨name, input⟩ s.world = ((signals, .ok o), w) →
      o.outcome ∉ expected →
      R integrityFailure (replied s ⟨name, input⟩ (.ok o) (handleAll handle s.fields signals) w))
    (herror : ∀ input signals cause w,
      world.activity ⟨name, input⟩ s.world = ((signals, .error cause), w) →
      R (.activityError cause)
        (replied s ⟨name, input⟩ (.error cause) (handleAll handle s.fields signals) w)) :
    Exec.Sat (requireOutcome world value name operation commandRef expected) s Q R := by
  unfold requireOutcome
  rw [Exec.sat_bind]
  refine sat_callActivity hinvalid (fun input signals o w _ hworld => ?_) herror
  exact Exec.Sat.check (hother input signals o w hworld) (hok input signals o w hworld)

/-- A call whose input cannot be built is not made. -/
theorem sat_requireOutcome_invalid {name : Activity} {operation : String}
    {commandRef : Option Identifier} {expected : List Outcome} {e : Failure}
    {Q : RemediationActivityOutcome → RunState ω → Prop} {R : Failure → RunState ω → Prop}
    (hinvalid : activityInput value operation commandRef = .error e) (h : R e s) :
    Exec.Sat (requireOutcome world value name operation commandRef expected) s Q R := by
  unfold requireOutcome callActivity
  rw [Exec.sat_bind, Exec.sat_bind, Exec.sat_lift, hinvalid]
  refine ⟨fun _ hok => (by cases hok), fun e' he' => ?_⟩
  cases he'
  exact h

/-- Building an input fails with a `ValidationError` only. -/
theorem activityInput_error {operation : String} {commandRef : Option Identifier} {e : Failure}
    (h : activityInput value operation commandRef = .error e) : ∃ error, e = .other error := by
  unfold activityInput at h
  split at h
  · exact ⟨_, (Except.error.inj h).symm⟩
  · cases h

/-- An operation name that is no longer than one that was accepted is accepted. -/
theorem activityInput_shorter {longer operation : String} {longerRef commandRef : Option Identifier}
    {input : RemediationActivityInput} (h : activityInput value longer longerRef = .ok input)
    (hlength : operation.toList.length ≤ longer.toList.length)
    (hchars : operation.toList.all identifierChar = true) :
    ∃ input, activityInput value operation commandRef = .ok input := by
  have hlonger : isIdentifier (longer ++ ":" ++ value.runId.val ++ ":" ++ value.planRef.val)
      = true := by
    unfold activityInput Identifier.parse at h
    by_contra hnot
    rw [dif_neg hnot] at h
    cases h
  have hshorter : isIdentifier (operation ++ ":" ++ value.runId.val ++ ":" ++ value.planRef.val)
      = true := by
    simp only [isIdentifier, isReference, String.toList_append, List.length_append,
      List.all_append, Bool.and_eq_true, decide_eq_true_eq] at hlonger ⊢
    obtain ⟨⟨-, hlow⟩, ⟨⟨⟨-, hcolon⟩, hrun⟩, hcolon'⟩, hplan⟩ := hlonger
    have hone : ":".toList.length = 1 := by decide
    exact ⟨⟨by omega, by omega⟩, ⟨⟨⟨hchars, hcolon⟩, hrun⟩, hcolon'⟩, hplan⟩
  refine ⟨{ tenantRef := value.tenantRef, actorRef := value.actorRef,
            requestRef := value.requestRef, runId := value.runId, planRef := value.planRef,
            actionRef := value.actionRef, operationId := ⟨_, hshorter⟩, commandRef }, ?_⟩
  unfold activityInput Identifier.parse
  rw [dif_pos hshorter]

/-- The look at the cancel command. -/
theorem sat_cancelIfRequested {Q : Option RemediationWorkflowResult → RunState ω → Prop}
    {R : Failure → RunState ω → Prop}
    (hnone : s.fields.cancelCommand = none → Q none s)
    (hinvalid : s.fields.cancelCommand ≠ none → ∀ e, R (.other e) s)
    (hok : s.fields.cancelCommand ≠ none → ∀ input signals o w,
      world.activity ⟨.cancel, input⟩ s.world = ((signals, .ok o), w) →
      o.outcome ∈ [Outcome.cancelled, .duplicate] →
      Q (some (resultOf value .cancelled none none))
        (replied s ⟨.cancel, input⟩ (.ok o) (handleAll handle s.fields signals) w))
    (hother : s.fields.cancelCommand ≠ none → ∀ input signals o w,
      world.activity ⟨.cancel, input⟩ s.world = ((signals, .ok o), w) →
      o.outcome ∉ [Outcome.cancelled, .duplicate] →
      R integrityFailure
        (replied s ⟨.cancel, input⟩ (.ok o) (handleAll handle s.fields signals) w))
    (herror : s.fields.cancelCommand ≠ none → ∀ input signals cause w,
      world.activity ⟨.cancel, input⟩ s.world = ((signals, .error cause), w) →
      R (.activityError cause)
        (replied s ⟨.cancel, input⟩ (.error cause) (handleAll handle s.fields signals) w)) :
    Exec.Sat (cancelIfRequested world value) s Q R := by
  unfold cancelIfRequested
  rw [Exec.sat_bind, Exec.sat_read]
  cases hc : s.fields.cancelCommand with
  | none => exact hnone hc
  | some command =>
    have hne : s.fields.cancelCommand ≠ none := by rw [hc]; exact Option.some_ne_none command
    show Exec.Sat (requireOutcome world value .cancel "cancel" (some command)
      [.cancelled, .duplicate] >>= _) s Q R
    rw [Exec.sat_bind]
    refine sat_requireOutcome (fun e he => ?_) (hok hne) (hother hne) (herror hne)
    obtain ⟨error, rfl⟩ := activityInput_error he
    exact hinvalid hne error

/-- Taking an approval command off the queue. -/
theorem sat_popApproval {Q : Identifier → RunState ω → Prop} {R : Failure → RunState ω → Prop}
    (hempty : s.fields.approvalCommands = [] →
      R (.other ⟨.indexError, "pop from empty list"⟩) s)
    (hcons : ∀ command rest, s.fields.approvalCommands = command :: rest →
      Q command { s with fields := { s.fields with approvalCommands := rest } }) :
    Exec.Sat popApproval s Q R := by
  unfold popApproval
  rw [Exec.sat_bind, Exec.sat_read]
  cases hcommands : s.fields.approvalCommands with
  | nil => exact hempty hcommands
  | cons command rest => exact hcons command rest hcommands

/-- The handler of an activity error: a second look at the cancel command, whose own activity error
    is swallowed and whose other exceptions are not. -/
theorem sat_recover {cause : Option Identifier} {Q : RemediationWorkflowResult → RunState ω → Prop}
    {R : Failure → RunState ω → Prop}
    (hnone : s.fields.cancelCommand = none → Q (failedResult value cause) s)
    (hinvalid : s.fields.cancelCommand ≠ none → ∀ e, R (.other e) s)
    (hok : s.fields.cancelCommand ≠ none → ∀ input signals o w,
      world.activity ⟨.cancel, input⟩ s.world = ((signals, .ok o), w) →
      o.outcome ∈ [Outcome.cancelled, .duplicate] →
      Q (resultOf value .cancelled none none)
        (replied s ⟨.cancel, input⟩ (.ok o) (handleAll handle s.fields signals) w))
    (hother : s.fields.cancelCommand ≠ none → ∀ input signals o w,
      world.activity ⟨.cancel, input⟩ s.world = ((signals, .ok o), w) →
      o.outcome ∉ [Outcome.cancelled, .duplicate] →
      R integrityFailure
        (replied s ⟨.cancel, input⟩ (.ok o) (handleAll handle s.fields signals) w))
    (herror : s.fields.cancelCommand ≠ none → ∀ input signals cause' w,
      world.activity ⟨.cancel, input⟩ s.world = ((signals, .error cause'), w) →
      Q (failedResult value cause)
        (replied s ⟨.cancel, input⟩ (.error cause') (handleAll handle s.fields signals) w)) :
    Exec.Sat (recover world value (.activityError cause)) s Q R := by
  show Exec.Sat (cancelAfterError world value >>= _) s Q R
  rw [Exec.sat_bind, cancelAfterError, Exec.sat_catching]
  exact sat_cancelIfRequested hnone hinvalid hok hother herror

end Rules

/-! ## Invariants of the stages -/

/-- One activity of a run. -/
abbrev Called := Invocation Call (Reply RemediationActivityOutcome) WorkflowFields

/-- `I` survives every wait and every call of these activities. -/
abbrev KeptBy (I : RunState ω → Prop) (names : List Activity) : Prop :=
  Kept I fun call : Call => call.activity ∈ names

theorem KeptBy.sub {I : RunState ω → Prop} {names more : List Activity} (h : KeptBy I more)
    (hsub : names ⊆ more) : KeptBy I names := Kept.mono h fun _ hcall => hsub hcall

section Stages

variable {world : RunWorld ω} {value : RemediationWorkflowInput} {s : RunState ω}
  {I : RunState ω → Prop}

theorem callActivity_keeps {name : Activity} {operation : String} {commandRef : Option Identifier}
    (h : KeptBy I [name]) (hs : I s) :
    Exec.Sat (callActivity world value name operation commandRef) s (fun _ => I) (fun _ => I) := by
  unfold callActivity
  exact Exec.Sat.attempt (fun _ _ => hs) fun input _ => activity_keeps h List.mem_cons_self hs

theorem requireOutcome_keeps {name : Activity} {operation : String} {commandRef : Option Identifier}
    {expected : List Outcome} (h : KeptBy I [name]) (hs : I s) :
    Exec.Sat (requireOutcome world value name operation commandRef expected) s (fun _ => I)
      (fun _ => I) := by
  unfold requireOutcome
  rw [Exec.sat_bind]
  refine (callActivity_keeps h hs).mono (fun o s' hs' => ?_) (fun _ _ hs' => hs')
  exact Exec.Sat.check (fun _ => hs') (fun _ => hs')

theorem cancelIfRequested_keeps (h : KeptBy I [.cancel]) (hs : I s) :
    Exec.Sat (cancelIfRequested world value) s (fun _ => I) (fun _ => I) := by
  unfold cancelIfRequested
  rw [Exec.sat_bind, Exec.sat_read]
  cases s.fields.cancelCommand with
  | none => exact hs
  | some command =>
    show Exec.Sat (requireOutcome world value .cancel "cancel" (some command)
      [.cancelled, .duplicate] >>= _) s _ _
    rw [Exec.sat_bind]
    exact requireOutcome_keeps h hs

-- From here on a call is used through its rule; nothing is gained by unfolding one.
attribute [irreducible] callActivity requireOutcome cancelIfRequested

theorem unlessCancelled_keeps {next : Flow ω RemediationWorkflowResult} (h : KeptBy I [.cancel])
    (hnext : ∀ s, I s → Exec.Sat next s (fun _ => I) (fun _ => I)) (hs : I s) :
    Exec.Sat (unlessCancelled world value next) s (fun _ => I) (fun _ => I) := by
  unfold unlessCancelled
  rw [Exec.sat_bind]
  refine (cancelIfRequested_keeps h hs).mono (fun r s' hs' => ?_) (fun _ _ hs' => hs')
  cases r with
  | none => exact hnext s' hs'
  | some r => exact hs'

/-- With a cancel command in, only the cancellation is called. -/
theorem unlessCancelled_cancels {next : Flow ω RemediationWorkflowResult} (h : KeptBy I [.cancel])
    (hin : s.fields.cancelCommand ≠ none) (hs : I s) :
    Exec.Sat (unlessCancelled world value next) s (fun _ => I) (fun _ => I) := by
  unfold unlessCancelled
  rw [Exec.sat_bind]
  refine sat_cancelIfRequested (fun hnone => absurd hnone hin) (fun _ _ => hs) ?_ ?_ ?_
  · intro _ input signals o w _ _
    exact h.called _ List.mem_cons_self s _ _ _ hs
  · intro _ input signals o w _ _
    exact h.called _ List.mem_cons_self s _ _ _ hs
  · intro _ input signals cause w _
    exact h.called _ List.mem_cons_self s _ _ _ hs

theorem recover_keeps (h : KeptBy I [.cancel]) (hs : I s) (e : Failure) :
    Exec.Sat (recover world value e) s (fun _ => I) (fun _ => I) := by
  cases e with
  | applicationError type => exact hs
  | other e => exact hs
  | activityError cause =>
    show Exec.Sat (cancelAfterError world value >>= _) s _ _
    rw [Exec.sat_bind, cancelAfterError, Exec.sat_catching]
    refine (cancelIfRequested_keeps h hs).mono (fun r s' hs' => ?_) (fun e s' hs' => ?_)
    · cases r with
      | none => exact hs'
      | some r => exact hs'
    · cases e with
      | activityError cause => exact hs'
      | applicationError type => exact hs'
      | other e => exact hs'

theorem escalate_keeps (h : KeptBy I [.escalate]) (hs : I s) (code : Identifier) :
    Exec.Sat (escalate world value code) s (fun _ => I) (fun _ => I) := by
  unfold escalate
  rw [Exec.sat_bind]
  exact requireOutcome_keeps h hs

theorem rollBack_keeps (h : KeptBy I [.rollback, .escalate]) (hs : I s) :
    Exec.Sat (rollBack world value) s (fun _ => I) (fun _ => I) := by
  unfold rollBack
  rw [Exec.sat_bind]
  refine (callActivity_keeps (h.sub (by simp)) hs).mono (fun o s' hs' => ?_) (fun _ _ hs' => hs')
  split
  · exact hs'
  · exact escalate_keeps (h.sub (by simp)) hs' _

theorem verifyEffect_keeps (h : KeptBy I [.verify, .rollback, .escalate]) (hs : I s)
    (effect : RemediationActivityOutcome) :
    Exec.Sat (verifyEffect world value effect) s (fun _ => I) (fun _ => I) := by
  unfold verifyEffect
  rw [Exec.sat_bind]
  refine (callActivity_keeps (h.sub (by simp)) hs).mono (fun o s' hs' => ?_) (fun _ _ hs' => hs')
  split
  · exact hs'
  · split
    · exact hs'
    · exact rollBack_keeps (h.sub (by simp)) hs'

theorem popReconciliation_keeps {names : List Activity} (h : KeptBy I names) (hs : I s) :
    Exec.Sat popReconciliation s (fun _ => I) (fun _ => I) := by
  unfold popReconciliation
  rw [Exec.sat_bind, Exec.sat_read]
  cases s.fields.reconciliationCommands with
  | nil => exact hs
  | cons command rest => exact h.waited s _ _ hs

theorem popApproval_keeps {names : List Activity} (h : KeptBy I names) (hs : I s) :
    Exec.Sat popApproval s (fun _ => I) (fun _ => I) :=
  sat_popApproval (fun _ => hs) (fun _ _ _ => h.waited s _ _ hs)

/-- The verification stage keeps `I`. -/
abbrev VerifyKeeps (world : RunWorld ω) (value : RemediationWorkflowInput) (I : RunState ω → Prop) :
    Prop :=
  ∀ effect s, I s → Exec.Sat (verifyEffect world value effect) s (fun _ => I) (fun _ => I)

theorem reconcileEffect_keeps (h : KeptBy I [.cancel, .escalate, .reconcile])
    (hverify : VerifyKeeps world value I) (hs : I s) :
    Exec.Sat (reconcileEffect world value) s (fun _ => I) (fun _ => I) := by
  have hcancel : KeptBy I [.cancel] := h.sub (by simp)
  have hescalate : KeptBy I [.escalate] := h.sub (by simp)
  unfold reconcileEffect
  rw [Exec.sat_bind]
  refine sat_waitCondition (fun signals w _ => ?_)
  have hwaited := h.waited s (handleAll handle s.fields signals) w hs
  split
  · exact escalate_keeps hescalate hwaited _
  · refine unlessCancelled_keeps hcancel (fun s hs => ?_) hwaited
    refine (popReconciliation_keeps h hs).call (fun _ _ hs' => hs') (fun command s' hs' => ?_)
    refine (callActivity_keeps (h.sub (by simp)) hs').call (fun _ _ hs'' => hs'')
      (fun o s'' hs'' => ?_)
    split
    · exact escalate_keeps hescalate hs'' _
    · exact unlessCancelled_keeps hcancel (hverify o) hs''

theorem executeEffect_keeps (h : KeptBy I [.cancel, .escalate, .reconcile, .execute])
    (hverify : VerifyKeeps world value I) (hs : I s) :
    Exec.Sat (executeEffect world value) s (fun _ => I) (fun _ => I) := by
  unfold executeEffect
  rw [Exec.sat_bind]
  refine (callActivity_keeps (h.sub (by simp)) hs).mono (fun o s' hs' => ?_) (fun _ _ hs' => hs')
  split
  · exact reconcileEffect_keeps (h.sub (by simp)) hverify hs'
  · split
    · exact escalate_keeps (h.sub (by simp)) hs' _
    · exact unlessCancelled_keeps (h.sub (by simp)) (hverify o) hs'

theorem preflightEffect_keeps (h : KeptBy I [.cancel, .escalate, .reconcile, .execute, .preflight])
    (hverify : VerifyKeeps world value I) (hs : I s) :
    Exec.Sat (preflightEffect world value) s (fun _ => I) (fun _ => I) := by
  unfold preflightEffect
  rw [Exec.sat_bind]
  refine (requireOutcome_keeps (h.sub (by simp)) hs).mono (fun o s' hs' => ?_) (fun _ _ hs' => hs')
  exact unlessCancelled_keeps (h.sub (by simp))
    (fun s hs => executeEffect_keeps (h.sub (by simp)) hverify hs) hs'

/-- The activities of a run, but for those of the verification stage. -/
def lifecycleActivities : List Activity :=
  [.cancel, .escalate, .reconcile, .execute, .preflight, .loadApprovalDecision, .expire,
   .requestApproval]

theorem loadApproval_keeps (h : KeptBy I lifecycleActivities) (hverify : VerifyKeeps world value I)
    (hs : I s) : Exec.Sat (loadApproval world value) s (fun _ => I) (fun _ => I) := by
  unfold loadApproval
  refine (popApproval_keeps h hs).call (fun _ _ hs' => hs') (fun command s' hs' => ?_)
  refine (callActivity_keeps (h.sub (by simp [lifecycleActivities])) hs').call
    (fun _ _ hs'' => hs'') (fun decision s'' hs'' => ?_)
  unfold followDecision
  split
  · exact hs''
  · split
    · exact hs''
    · exact unlessCancelled_keeps (h.sub (by simp [lifecycleActivities])) (fun s hs =>
        preflightEffect_keeps (h.sub (by simp [lifecycleActivities])) hverify hs) hs''

/-- **Invariant rule.**  What every call of a run and its verification stage keep, the run keeps. -/
theorem runRemediation_keeps (h : KeptBy I lifecycleActivities)
    (hverify : VerifyKeeps world value I) (hs : I s) :
    Exec.Sat (runRemediation world value) s (fun _ => I) (fun _ => I) := by
  unfold runRemediation lifecycle
  rw [Exec.sat_catching]
  refine Exec.Sat.mono (Q := fun _ => I) (R := fun _ => I) ?_ (fun _ _ hs' => hs')
    (fun e s' hs' => recover_keeps (h.sub (by simp [lifecycleActivities])) hs' e)
  refine (requireOutcome_keeps (h.sub (by simp [lifecycleActivities])) hs).call
    (fun _ _ hs' => hs') (fun o s' hs' => ?_)
  rw [Exec.sat_bind]
  refine sat_waitCondition (fun signals w _ => ?_)
  have hwaited := h.waited s' (handleAll handle s'.fields signals) w hs'
  unfold afterWait
  split
  · rw [Exec.sat_bind]
    exact requireOutcome_keeps (h.sub (by simp [lifecycleActivities])) hwaited
  · exact unlessCancelled_keeps (h.sub (by simp [lifecycleActivities]))
      (fun s hs => loadApproval_keeps h hverify hs) hwaited

end Stages

end RemediationTemporal

end Aegis
