/-
  THE SANDBOX WORKFLOW: provision, wait, capture, attest, and clean up on every path.

  `lifecycle` is the body of the workflow's `try`; its result is a terminal status, rewritten by the
  error handlers and by the cancellation checks.  `cleanUp` is the `finally` block: it runs whatever
  came before and may turn the terminal result into a failure.  A reconciliation of an ambiguous
  outcome waits for a signal and calls the activity that fits it: cancel, then redrive, then reconcile.
-/
import Mathlib
import Aegis.Temporal.Base

namespace Aegis

namespace SandboxTemporal

open Workflow Temporal

/-! ## Messages -/

structure SandboxWorkflowInput where
  tenantRef : OpaqueReference
  actorRef : Identifier
  requestRef : Identifier
  executionId : Identifier
  workflowId : Identifier
  attempt : Nat
  executionTimeoutSeconds : Nat
  reconciliationTimeoutSeconds : Nat
  cleanupTimeoutSeconds : Nat
  attempt_ok : 1 ≤ attempt ∧ attempt ≤ 16
  execution_timeout_ok : 1 ≤ executionTimeoutSeconds ∧ executionTimeoutSeconds ≤ 3600
  reconciliation_timeout_ok : 30 ≤ reconciliationTimeoutSeconds ∧
    reconciliationTimeoutSeconds ≤ 86400
  cleanup_timeout_ok : 10 ≤ cleanupTimeoutSeconds ∧ cleanupTimeoutSeconds ≤ 900

structure SandboxActivityInput where
  tenantRef : OpaqueReference
  actorRef : Identifier
  requestRef : Identifier
  executionId : Identifier
  operationId : Identifier
  attempt : Nat
  commandRef : Option Identifier

/-- The outcomes an activity may report. -/
inductive Outcome where
  | recorded | authorized | claimed | absent | provisioned | running | succeeded | failed | timedOut
  | oomKilled | violation | cancelled | captured | quarantined | attested | cleaned | ambiguous
  | reconciled | orphanRedriven | duplicate
deriving DecidableEq, Repr

structure SandboxActivityOutcome where
  outcome : Outcome
  resultRef : Option Identifier
  providerRef : Option Identifier
deriving DecidableEq

/-- How a workflow can end. -/
inductive Status where
  | succeeded | failed | timedOut | oomKilled | violation | cancelled | quarantined | escalated
deriving DecidableEq, Repr

structure SandboxWorkflowResult where
  executionId : Identifier
  status : Status
  resultRef : Option Identifier
  failureCode : Option Identifier
deriving DecidableEq

/-- The activities, by the name they are registered under. -/
inductive Activity where
  | recordRequest | authorizeAndClaim | provision | waitForCompletion | captureOutputs | attest
  | cleanup | cancel | reconcile | redriveOrphan
deriving DecidableEq, Repr

def Activity.name : Activity → String
  | .recordRequest => "aegis.sandbox.record_request"
  | .authorizeAndClaim => "aegis.sandbox.authorize_and_claim"
  | .provision => "aegis.sandbox.provision"
  | .waitForCompletion => "aegis.sandbox.wait_for_completion"
  | .captureOutputs => "aegis.sandbox.capture_outputs"
  | .attest => "aegis.sandbox.attest"
  | .cleanup => "aegis.sandbox.cleanup"
  | .cancel => "aegis.sandbox.cancel"
  | .reconcile => "aegis.sandbox.reconcile"
  | .redriveOrphan => "aegis.sandbox.redrive_orphan"

/-- A call of an activity, its timeouts in seconds. -/
structure Call where
  activity : Activity
  input : SandboxActivityInput
  startToClose : Nat
  heartbeat : Option Nat

/-! ## Signals -/

inductive Signal where
  | requestCancel (commandRef : Identifier)
  | reconcileSandbox (commandRef : Identifier)
  | redriveOrphan (commandRef : Identifier)
deriving DecidableEq

/-- The workflow's own fields.  `seenCommands` is a set; a command is added only when it is new. -/
structure WorkflowFields where
  cancelCommand : Option Identifier
  reconcileCommands : List Identifier
  orphanCommands : List Identifier
  seenCommands : List Identifier
deriving DecidableEq

def WorkflowFields.init : WorkflowFields := ⟨none, [], [], []⟩

/-- The signal handlers. -/
def handle (f : WorkflowFields) : Signal → WorkflowFields
  | .requestCancel commandRef =>
    if commandRef ∈ f.seenCommands ∨ f.cancelCommand.isSome = true then f
    else if 64 ≤ f.seenCommands.length then f
    else { f with
      seenCommands := commandRef :: f.seenCommands
      cancelCommand := some commandRef }
  | .reconcileSandbox commandRef =>
    if commandRef ∈ f.seenCommands ∨ 64 ≤ f.seenCommands.length then f
    else { f with
      seenCommands := commandRef :: f.seenCommands
      reconcileCommands := f.reconcileCommands ++ [commandRef] }
  | .redriveOrphan commandRef =>
    if commandRef ∈ f.seenCommands ∨ 64 ≤ f.seenCommands.length then f
    else { f with
      seenCommands := commandRef :: f.seenCommands
      orphanCommands := f.orphanCommands ++ [commandRef] }

/-! ## The workflow -/

/-- The state of a run. -/
abbrev RunState (ω : Type) : Type :=
  Progress Call (Reply SandboxActivityOutcome) WorkflowFields ω

/-- What surrounds a run. -/
abbrev RunWorld (ω : Type) : Type := World Signal Call (Reply SandboxActivityOutcome) ω

abbrev Flow (ω α : Type) : Type := Exec Failure (RunState ω) α

/-- `_input`. -/
def activityInput (value : SandboxWorkflowInput) (operation : String)
    (commandRef : Option Identifier) : Except Failure SandboxActivityInput :=
  match Identifier.parse "SandboxActivityInput.operation_id"
      (value.executionId.val ++ "-" ++ operation) with
  | .error e => .error (.other e)
  | .ok operationId =>
    .ok { tenantRef := value.tenantRef, actorRef := value.actorRef, requestRef := value.requestRef,
          executionId := value.executionId, operationId, attempt := value.attempt, commandRef }

/-- `_failed`.  A code is an identifier: short enough, and without spaces. -/
def failedResult (value : SandboxWorkflowInput) (code : Identifier) : SandboxWorkflowResult :=
  { executionId := value.executionId, status := .failed, resultRef := none, failureCode := some code }

def code (s : String) (h : isIdentifier s = true := by exact computed) : Identifier := ⟨s, h⟩

variable {ω : Type}

section Run

variable (world : RunWorld ω) (value : SandboxWorkflowInput)

/-- `_activity`, on an input built first. -/
def callActivity (name : Activity) (operation : String) (commandRef : Option Identifier)
    (startToClose : Nat) (heartbeat : Option Nat) : Flow ω SandboxActivityOutcome := do
  let input ← Exec.lift (activityInput value operation commandRef)
  activity handle world ⟨name, input, startToClose, heartbeat⟩

/-- `_require`. -/
def requireOutcome (name : Activity) (operation : String) (allowed : List Outcome) :
    Flow ω SandboxActivityOutcome := do
  let outcome ← callActivity world value name operation none 120 none
  Exec.require (outcome.outcome ∈ allowed) (.applicationError (code "IntegrityFailure"))
  pure outcome

/-- `_cancel_if_requested`. -/
def cancelIfRequested : Flow ω (Option SandboxWorkflowResult) := do
  let s ← Exec.read
  match s.fields.cancelCommand with
  | none => pure none
  | some command => do
    let outcome ← callActivity world value .cancel "cancel" (some command) 120 none
    if outcome.outcome ∉ [Outcome.cancelled, .absent, .duplicate] then
      pure (some (failedResult value (code "cancel_failed")))
    else
      pure (some { executionId := value.executionId, status := .cancelled,
                   resultRef := outcome.resultRef, failureCode := some (code "sandbox_cancelled") })

/-- The activity that settles an ambiguous outcome, by the signal that arrived. -/
def settle : Flow ω SandboxActivityOutcome := do
  let s ← Exec.read
  match s.fields.cancelCommand, s.fields.orphanCommands, s.fields.reconcileCommands with
  | some command, _, _ => callActivity world value .cancel "cancel" (some command) 120 none
  | none, command :: rest, _ => do
    assign fun f => { f with orphanCommands := rest }
    callActivity world value .redriveOrphan "orphan-redrive" (some command) 120 none
  | none, [], command :: rest => do
    assign fun f => { f with reconcileCommands := rest }
    callActivity world value .reconcile "reconcile" (some command) 120 none
  | none, [], [] => Exec.raise (.other ⟨.indexError, "pop from empty list"⟩)

/-- `_reconcile_ambiguous`; the failure code is the message of the error. -/
def reconcileAmbiguous : Flow ω SandboxActivityOutcome := do
  let met ← waitCondition handle world
    (fun f => !f.reconcileCommands.isEmpty || !f.orphanCommands.isEmpty || f.cancelCommand.isSome)
    value.reconciliationTimeoutSeconds
  if met = false then Exec.raise (.applicationError (code "SandboxAmbiguous"))
  else settle world value

/-- The status of an execution outcome that is one, with its failure code. -/
def executionStatus : Outcome → Option (Status × Option Identifier)
  | .succeeded => some (.succeeded, none)
  | .failed => some (.failed, some (code "sandbox_failed"))
  | .timedOut => some (.timedOut, some (code "sandbox_timed_out"))
  | .oomKilled => some (.oomKilled, some (code "sandbox_oom_killed"))
  | .violation => some (.violation, some (code "sandbox_violation"))
  | .cancelled => some (.cancelled, some (code "sandbox_cancelled"))
  | .quarantined => some (.quarantined, some (code "sandbox_quarantined"))
  | _ => none

/-- The result of an execution. -/
def executionResult (outcome : SandboxActivityOutcome) : SandboxWorkflowResult :=
  match executionStatus outcome.outcome with
  | some (status, failureCode) =>
    { executionId := value.executionId, status, resultRef := outcome.resultRef, failureCode }
  | none => failedResult value (code "invalid_execution_outcome")

/-- The outcome itself, or that of its reconciliation. -/
def unambiguous (outcome : SandboxActivityOutcome) : Flow ω SandboxActivityOutcome :=
  if outcome.outcome = .ambiguous then reconcileAmbiguous world value else pure outcome

/-- `_handle_execution`. -/
def handleExecution (outcome : SandboxActivityOutcome) : Flow ω SandboxWorkflowResult := do
  let outcome ← unambiguous world value outcome
  pure (executionResult value outcome)

/-- The provisioning stage, unless the run is over. -/
def provision (terminal : Option SandboxWorkflowResult) : Flow ω (Option SandboxWorkflowResult) :=
  match terminal with
  | some terminal => pure (some terminal)
  | none => do
    let provision ← callActivity world value .provision "provision" none 300 (some 30)
    let provision ← unambiguous world value provision
    if provision.outcome ∉ [Outcome.provisioned, .running, .duplicate] then
      pure (some (failedResult value (code "provision_failed")))
    else pure none

/-- The execution stage, unless the run is over. -/
def awaitExecution (terminal : Option SandboxWorkflowResult) : Flow ω SandboxWorkflowResult :=
  match terminal with
  | some terminal => pure terminal
  | none => do
    let execution ← callActivity world value .waitForCompletion "wait" none
      (value.executionTimeoutSeconds + 60) (some 30)
    handleExecution world value execution

/-- The attestation of captured outputs. -/
def attestOutputs (terminal : SandboxWorkflowResult) (capture : SandboxActivityOutcome) :
    Flow ω SandboxWorkflowResult := do
  let attestation ← callActivity world value .attest "attest" none 120 none
  if attestation.outcome ∉ [Outcome.attested, .duplicate] then
    pure (failedResult value (code "attestation_failed"))
  else
    pure { terminal with
      resultRef := attestation.resultRef <|> (capture.resultRef <|> terminal.resultRef) }

/-- The outputs of a successful execution. -/
def captureOutputs (terminal : SandboxWorkflowResult) : Flow ω SandboxWorkflowResult := do
  let capture ← callActivity world value .captureOutputs "capture" none 300 (some 30)
  if capture.outcome = .quarantined then
    pure { executionId := value.executionId, status := .quarantined, resultRef := capture.resultRef,
           failureCode := some (code "artifact_quarantined") }
  else if capture.outcome ∉ [Outcome.captured, .duplicate] then
    pure (failedResult value (code "capture_failed"))
  else attestOutputs world value terminal capture

/-- The body of the `try`. -/
def lifecycle : Flow ω SandboxWorkflowResult := do
  let _ ← requireOutcome world value .recordRequest "record-request" [.recorded, .duplicate]
  let _ ← requireOutcome world value .authorizeAndClaim "authorize-claim"
    [.authorized, .claimed, .duplicate]
  let cancelled ← cancelIfRequested world value
  let terminal ← provision world value cancelled
  let cancelled ← cancelIfRequested world value
  let terminal ← awaitExecution world value (cancelled <|> terminal)
  if terminal.status = .succeeded then captureOutputs world value terminal else pure terminal

/-- The `except` clauses. -/
def recover : Failure → Flow ω SandboxWorkflowResult
  | .activityError cause =>
    pure (failedResult value (cause.getD (code "activity_failed")))
  | .applicationError type => pure (failedResult value type)
  | .other e => Exec.raise (.other e)

/-- The cleanup itself: what becomes of a terminal result. -/
def cleanSandbox (terminal : Except Failure SandboxWorkflowResult) :
    Flow ω (Except Failure SandboxWorkflowResult) := do
  let cleanup ← callActivity world value .cleanup "cleanup" none value.cleanupTimeoutSeconds (some 30)
  if cleanup.outcome = .ambiguous then do
    let _ ← reconcileAmbiguous world value
    pure terminal
  else if cleanup.outcome ∉ [Outcome.cleaned, .absent, .duplicate] then
    pure (terminal.map fun _ => failedResult value (code "cleanup_failed"))
  else pure terminal

/-- The `finally` block; an exception still on its way goes on after it. -/
def cleanUp (terminal : Except Failure SandboxWorkflowResult) :
    Flow ω (Except Failure SandboxWorkflowResult) :=
  Exec.catching (cleanSandbox world value terminal) fun e =>
    match e with
    | .other e => Exec.raise (.other e)
    | _ => pure (terminal.map fun _ => failedResult value (code "cleanup_failed"))

/-- `run`. -/
def runSandbox : Flow ω SandboxWorkflowResult := do
  let terminal ← Exec.reify (Exec.catching (lifecycle world value) (recover value))
  let terminal ← cleanUp world value terminal
  Exec.lift terminal

end Run

/-! ## Rules -/

/-- One activity of a run. -/
abbrev Called := Invocation Call (Reply SandboxActivityOutcome) WorkflowFields

/-- `I` survives every wait and every call of these activities. -/
abbrev KeptBy (I : RunState ω → Prop) (names : List Activity) : Prop :=
  Kept I fun call : Call => call.activity ∈ names

section Rules

variable {world : RunWorld ω} {value : SandboxWorkflowInput} {s : RunState ω}

/-- Building an input fails with a `ValidationError` only. -/
theorem activityInput_error {operation : String} {commandRef : Option Identifier} {e : Failure}
    (h : activityInput value operation commandRef = .error e) : ∃ error, e = .other error := by
  unfold activityInput at h
  split at h
  · exact ⟨_, (Except.error.inj h).symm⟩
  · cases h

/-- A call is refused for its input, or made. -/
theorem sat_callActivity {name : Activity} {operation : String} {commandRef : Option Identifier}
    {startToClose : Nat} {heartbeat : Option Nat}
    {Q : SandboxActivityOutcome → RunState ω → Prop} {R : Failure → RunState ω → Prop}
    (hinvalid : ∀ error, R (.other error) s)
    (hok : ∀ input o fields w,
      Q o (replied s ⟨name, input, startToClose, heartbeat⟩ (.ok o) fields w))
    (herror : ∀ input cause fields w,
      R (.activityError cause)
        (replied s ⟨name, input, startToClose, heartbeat⟩ (.error cause) fields w)) :
    Exec.Sat (callActivity world value name operation commandRef startToClose heartbeat) s Q R := by
  unfold callActivity
  refine Exec.Sat.attempt (fun e he => ?_) (fun input _ => ?_)
  · obtain ⟨error, rfl⟩ := activityInput_error he
    exact hinvalid error
  · exact sat_activity (fun _ o w _ => hok input o _ w) (fun _ cause w _ => herror input cause _ w)

variable {I : RunState ω → Prop}

theorem callActivity_keeps {name : Activity} {operation : String} {commandRef : Option Identifier}
    {startToClose : Nat} {heartbeat : Option Nat} (h : KeptBy I [name]) (hs : I s) :
    Exec.Sat (callActivity world value name operation commandRef startToClose heartbeat) s
      (fun _ => I) (fun _ => I) := by
  unfold callActivity
  exact Exec.Sat.attempt (fun _ _ => hs) fun _ _ => activity_keeps h List.mem_cons_self hs

-- From here on a call is used through its rule; nothing is gained by unfolding one.
attribute [irreducible] callActivity

theorem requireOutcome_keeps {name : Activity} {operation : String} {allowed : List Outcome}
    (h : KeptBy I [name]) (hs : I s) :
    Exec.Sat (requireOutcome world value name operation allowed) s (fun _ => I) (fun _ => I) := by
  unfold requireOutcome
  refine (callActivity_keeps h hs).call (fun _ _ hs' => hs') (fun o s' hs' => ?_)
  exact Exec.Sat.check (fun _ => hs') (fun _ => hs')

/-- A cancellation ends the run, and never as a success. -/
theorem cancelIfRequested_keeps (h : KeptBy I [.cancel]) (hs : I s) :
    Exec.Sat (cancelIfRequested world value) s
      (fun r s' => I s' ∧ ∀ t, r = some t → t.status ≠ .succeeded) (fun _ => I) := by
  unfold cancelIfRequested
  rw [Exec.sat_bind, Exec.sat_read]
  cases s.fields.cancelCommand with
  | none => exact ⟨hs, fun t ht => (by cases ht)⟩
  | some command =>
    refine (callActivity_keeps h hs).call (fun _ _ hs' => hs') (fun o s' hs' => ?_)
    split
    · refine ⟨hs', fun t ht => ?_⟩
      cases ht
      exact (by decide : Status.failed ≠ .succeeded)
    · refine ⟨hs', fun t ht => ?_⟩
      cases ht
      exact (by decide : Status.cancelled ≠ .succeeded)

/-- The activities that settle an ambiguous outcome. -/
def reconciliations : List Activity := [.cancel, .redriveOrphan, .reconcile]

/-- A reconciliation makes no call, or one call whose reply it passes on. -/
theorem sat_reconcileAmbiguous {Q : SandboxActivityOutcome → RunState ω → Prop}
    {R : Failure → RunState ω → Prop}
    (hnone : ∀ s' : RunState ω, s'.invocations = s.invocations →
      (∀ error, R (.other error) s') ∧ ∀ type, R (.applicationError type) s')
    (hok : ∀ (call : Call) o (s' : RunState ω) fields, call.activity ∈ reconciliations →
      s'.invocations = s.invocations ++ [⟨call, .ok o, fields⟩] → Q o s')
    (herror : ∀ (call : Call) cause (s' : RunState ω) fields, call.activity ∈ reconciliations →
      s'.invocations = s.invocations ++ [⟨call, .error cause, fields⟩] →
      R (.activityError cause) s') :
    Exec.Sat (reconcileAmbiguous world value) s Q R := by
  have hcall : ∀ (name : Activity) (operation : String) (commandRef : Option Identifier)
      (s' : RunState ω), name ∈ reconciliations → s'.invocations = s.invocations →
      Exec.Sat (callActivity world value name operation commandRef 120 none) s' Q R := by
    intro name operation commandRef s' hname hsame
    refine sat_callActivity (hnone s' hsame).1 (fun input o fields w => ?_)
      (fun input cause fields w => ?_)
    · exact hok ⟨name, input, 120, none⟩ o _ fields hname (by rw [replied_invocations, hsame])
    · exact herror ⟨name, input, 120, none⟩ cause _ fields hname
        (by rw [replied_invocations, hsame])
  unfold reconcileAmbiguous
  rw [Exec.sat_bind]
  refine sat_waitCondition (fun signals w _ => ?_)
  split
  · exact (hnone { s with fields := handleAll handle s.fields signals, world := w } rfl).2 _
  · unfold settle
    rw [Exec.sat_bind, Exec.sat_read]
    split
    · exact hcall _ _ _ _ (by decide) rfl
    · rw [Exec.sat_bind]
      exact hcall _ _ _ _ (by decide) rfl
    · rw [Exec.sat_bind]
      exact hcall _ _ _ _ (by decide) rfl
    · exact (hnone { s with fields := handleAll handle s.fields signals, world := w } rfl).1 _

end Rules

end SandboxTemporal

end Aegis
