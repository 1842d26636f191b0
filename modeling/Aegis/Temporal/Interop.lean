/-
  THE INTEROPERABILITY WORKFLOW: authorize, reserve, record the intent, call the peer, record the result.

  Once the peer may have been called, an error says nothing about what it did.  `execute` has one handler
  for every activity error, which answers FAILED whatever the stage, and `_require` raises an application
  error that nothing catches.  So a run keeps its promises exactly when none of the activities from the
  network call on fails, the result is recorded as completed, and a cancellation after the intent is
  confirmed or fails (`promises_iff`).
-/
import Mathlib
import Aegis.Temporal.Base
import Aegis.Interop.Records

namespace Aegis

namespace InteropTemporal

open Workflow Temporal
open Interop (TaskState)

/-! ## Messages -/

inductive InteropOperation where
  | mcpInvoke | a2aTask
deriving DecidableEq, Repr

/-- What the body reads of `InteropWorkflowInput`. -/
structure InteropWorkflowInput where
  tenantRef : OpaqueReference
  principalRef : Identifier
  operationId : Identifier
  peerId : Identifier
  operation : InteropOperation
  requestDigest : Digest
  fenceToken : Identifier

structure InteropActivityInput where
  tenantRef : OpaqueReference
  principalRef : Identifier
  operationId : Identifier
  peerId : Identifier
  requestDigest : Digest
  operationRef : Identifier
  fenceToken : Identifier
  commandRef : Option Identifier

inductive Outcome where
  | authorized | reserved | intentRecorded | completed | failed | ambiguous | reconciled | cancelled
  | quarantined
deriving DecidableEq, Repr

structure InteropActivityOutcome where
  outcome : Outcome
  resultRef : Option OpaqueReference
  resultDigest : Option Digest
  errorCode : Option Identifier

structure InteropWorkflowResult where
  operationId : Identifier
  state : TaskState
  resultRef : Option OpaqueReference
  resultDigest : Option Digest
  errorCode : Option Identifier

/-- The activities, by the name they are registered under. -/
inductive Activity where
  | authorize | reserveQuota | persistIntent | invokeMcp | sendA2aTask | reconcile | persistResult
  | cancel | quarantine
deriving DecidableEq, Repr

def Activity.name : Activity → String
  | .authorize => "aegis.interop.authorize"
  | .reserveQuota => "aegis.interop.reserve_quota"
  | .persistIntent => "aegis.interop.persist_intent"
  | .invokeMcp => "aegis.interop.invoke_mcp"
  | .sendA2aTask => "aegis.interop.send_a2a_task"
  | .reconcile => "aegis.interop.reconcile"
  | .persistResult => "aegis.interop.persist_result"
  | .cancel => "aegis.interop.cancel"
  | .quarantine => "aegis.interop.quarantine"

/-- A call of an activity; the timeouts and the retries are the same for all. -/
structure Call where
  activity : Activity
  input : InteropActivityInput

/-! ## Signals -/

inductive Signal where
  | cancel (commandRef : Identifier)

inductive Stage where
  | created | authorizing | reserving | recordingIntent | network | reconciling | recordingResult
  | completed | cancelling | cancelled
deriving DecidableEq, Repr

structure WorkflowFields where
  cancellationRequested : Bool
  cancelCommandRef : Option Identifier
  stage : Stage

def WorkflowFields.init : WorkflowFields := ⟨false, none, .created⟩

/-- The signal handler. -/
def handle (f : WorkflowFields) : Signal → WorkflowFields
  | .cancel commandRef =>
    if f.cancellationRequested = true then f
    else { f with cancellationRequested := true, cancelCommandRef := some commandRef }

/-! ## The workflow -/

abbrev RunState (ω : Type) : Type := Progress Call (Reply InteropActivityOutcome) WorkflowFields ω

abbrev RunWorld (ω : Type) : Type := World Signal Call (Reply InteropActivityOutcome) ω

abbrev Flow (ω α : Type) : Type := Exec Failure (RunState ω) α

def code (s : String) (h : isIdentifier s = true := by exact computed) : Identifier := ⟨s, h⟩

/-- `_input`. -/
def activityInput (value : InteropWorkflowInput) (operation : String) (commandRef : Option Identifier) :
    Except Failure InteropActivityInput :=
  match Identifier.parse "InteropActivityInput.operation_ref"
      (value.operationId.val ++ "-" ++ operation) with
  | .error e => .error (.other e)
  | .ok operationRef =>
    .ok { tenantRef := value.tenantRef, principalRef := value.principalRef,
          operationId := value.operationId, peerId := value.peerId,
          requestDigest := value.requestDigest, operationRef, fenceToken := value.fenceToken,
          commandRef }

variable {ω : Type}

section Run

variable (world : RunWorld ω) (value : InteropWorkflowInput)

/-- `self._stage = ...`. -/
def setStage (stage : Stage) : Flow ω Unit := assign fun f => { f with stage }

/-- `_activity`, on an input built first. -/
def callActivity (name : Activity) (operation : String) (commandRef : Option Identifier) :
    Flow ω InteropActivityOutcome := do
  let input ← Exec.lift (activityInput value operation commandRef)
  activity handle world ⟨name, input⟩

/-- `_require`. -/
def requireOutcome (name : Activity) (operation : String) (commandRef : Option Identifier)
    (expected : Outcome) : Flow ω InteropActivityOutcome := do
  let result ← callActivity world value name operation commandRef
  Exec.require (result.outcome = expected) (.applicationError (code "IntegrityFailure"))
  pure result

/-- A result without references. -/
def ended (state : TaskState) (errorCode : Option Identifier) : InteropWorkflowResult :=
  { operationId := value.operationId, state, resultRef := none, resultDigest := none, errorCode }

/-- `_cancel_if_requested`. -/
def cancelIfRequested : Flow ω (Option InteropWorkflowResult) := do
  let s ← Exec.read
  if s.fields.cancellationRequested = false then pure none
  else do
    setStage .cancelling
    let _ ← requireOutcome world value .cancel "cancel" s.fields.cancelCommandRef .cancelled
    setStage .cancelled
    pure (some (ended value .cancelled none))

/-- The name of the network activity. -/
def networkActivity : Activity :=
  match value.operation with
  | .mcpInvoke => .invokeMcp
  | .a2aTask => .sendA2aTask

/-- The end of a run whose outcome is not ambiguous. -/
def settle (outcome : InteropActivityOutcome) : Flow ω InteropWorkflowResult :=
  if outcome.outcome = .quarantined then do
    let _ ← callActivity world value .quarantine "quarantine" none
    pure (ended value .quarantined (some (outcome.errorCode.getD (code "peer-result-quarantined"))))
  else if outcome.outcome ∉ [Outcome.completed, .reconciled] then
    pure (ended value .failed (some (outcome.errorCode.getD (code "peer-operation-failed"))))
  else do
    setStage .recordingResult
    let persisted ← requireOutcome world value .persistResult "persist-result" none .completed
    setStage .completed
    pure { operationId := value.operationId, state := .completed,
           resultRef := persisted.resultRef <|> outcome.resultRef,
           resultDigest := persisted.resultDigest <|> outcome.resultDigest, errorCode := none }

/-- From the network call on. -/
def callPeer : Flow ω InteropWorkflowResult := do
  setStage .network
  let outcome ← callActivity world value (networkActivity value) "network" none
  if outcome.outcome = .ambiguous then do
    setStage .reconciling
    let outcome ← callActivity world value .reconcile "reconcile" none
    if outcome.outcome ≠ .reconciled then
      pure (ended value .reconciliationRequired
        (some (outcome.errorCode.getD (code "reconciliation-inconclusive"))))
    else settle world value outcome
  else settle world value outcome

/-- After the intent is recorded. -/
def afterIntent : Flow ω InteropWorkflowResult := do
  match ← cancelIfRequested world value with
  | some cancelled => pure cancelled
  | none => callPeer world value

/-- The body of the `try`. -/
def lifecycle : Flow ω InteropWorkflowResult := do
  match ← cancelIfRequested world value with
  | some cancelled => pure cancelled
  | none => do
    setStage .authorizing
    let _ ← requireOutcome world value .authorize "authorize" none .authorized
    setStage .reserving
    let _ ← requireOutcome world value .reserveQuota "reserve-quota" none .reserved
    setStage .recordingIntent
    let _ ← requireOutcome world value .persistIntent "persist-intent" none .intentRecorded
    afterIntent world value

/-- `execute`. -/
def execute : Flow ω InteropWorkflowResult :=
  Exec.catching (lifecycle world value) fun e =>
    match e with
    | .activityError cause =>
      pure (ended value .failed (some (cause.getD (code "interop-activity-failed"))))
    | e => Exec.raise e

end Run

/-! ## The promises -/

/-- One activity of a run. -/
abbrev Called := Invocation Call (Reply InteropActivityOutcome) WorkflowFields

/-- One of these activities came back with such a reply. -/
def Reported (calls : List Called) (names : List Activity)
    (P : Reply InteropActivityOutcome → Prop) : Prop :=
  ∃ e ∈ calls, e.call.activity ∈ names ∧ P e.reply

/-- The reply is an activity error. -/
def Erred (reply : Reply InteropActivityOutcome) : Prop := ∃ cause, reply = .error cause

/-- The reply is an outcome, and one of these. -/
def Is (outcomes : List Outcome) (reply : Reply InteropActivityOutcome) : Prop :=
  ∃ o, reply = .ok o ∧ o.outcome ∈ outcomes

/-- The reply is an outcome, and none of these. -/
def IsNot (outcomes : List Outcome) (reply : Reply InteropActivityOutcome) : Prop :=
  ∃ o, reply = .ok o ∧ o.outcome ∉ outcomes

def networkActivities : List Activity := [.invokeMcp, .sendA2aTask]

/-- The network activity has been scheduled. -/
def Scheduled (calls : List Called) : Prop := Reported calls networkActivities fun _ => True

def IntentRecorded (calls : List Called) : Prop := Reported calls [.persistIntent] (Is [.intentRecorded])

/-- What a run of the workflow promises. -/
structure Promises (result : Except Failure InteropWorkflowResult) (calls : List Called) : Prop where
  failed : Scheduled calls → ∀ r, result = .ok r → r.state = .failed →
    Reported calls (networkActivities ++ [.reconcile])
      (IsNot [.ambiguous, .quarantined, .completed, .reconciled])
  unknown : Reported calls (networkActivities ++ [.reconcile, .persistResult]) Erred →
    ∃ r, result = .ok r ∧ r.state = .reconciliationRequired
  completed : ∀ r, result = .ok r → r.state = .completed →
    Reported calls [.persistResult] (Is [.completed])
  cancelled : ∀ r, result = .ok r → r.state = .cancelled → ¬Scheduled calls
  ends : IntentRecorded calls → ∃ r, result = .ok r

/-- What the activities have to answer: none from the network call on fails, the result is recorded as
    completed, and a cancellation after the intent is not refused. -/
structure Orderly (calls : List Called) : Prop where
  sound : ¬Reported calls (networkActivities ++ [.reconcile, .quarantine, .persistResult]) Erred
  persisted : ¬Reported calls [.persistResult] (IsNot [.completed])
  confirmed : ¬(IntentRecorded calls ∧ Reported calls [.cancel] (IsNot [.cancelled]))

section Reports

variable {calls : List Called} {e : Called} {names : List Activity}
  {P : Reply InteropActivityOutcome → Prop}

@[simp] theorem reported_concat :
    Reported (calls ++ [e]) names P ↔ Reported calls names P ∨ (e.call.activity ∈ names ∧ P e.reply) := by
  unfold Reported
  constructor
  · rintro ⟨x, hx, hP⟩
    rcases List.mem_append.mp hx with hx | hx
    · exact .inl ⟨x, hx, hP⟩
    · rw [List.mem_singleton.mp hx] at hP
      exact .inr hP
  · rintro (⟨x, hx, hP⟩ | hP)
    · exact ⟨x, List.mem_append_left _ hx, hP⟩
    · exact ⟨e, List.mem_append_right _ (List.mem_singleton.mpr rfl), hP⟩

/-- The calls are these activities only. -/
def Only (allowed : List Activity) (calls : List Called) : Prop :=
  ∀ e ∈ calls, e.call.activity ∈ allowed

theorem Only.not_reported {allowed : List Activity} (h : Only allowed calls)
    (hdisjoint : ∀ a ∈ allowed, a ∉ names) : ¬Reported calls names P := by
  rintro ⟨x, hx, hname, -⟩
  exact hdisjoint _ (h x hx) hname

theorem Only.concat {allowed : List Activity} (h : Only allowed calls) (he : e.call.activity ∈ allowed) :
    Only allowed (calls ++ [e]) := by
  intro x hx
  rcases List.mem_append.mp hx with hx | hx
  · exact h x hx
  · rw [List.mem_singleton.mp hx]
    exact he

@[simp] theorem erred_ok {o : InteropActivityOutcome} : ¬Erred (.ok o) := by
  rintro ⟨_, h⟩
  cases h

@[simp] theorem is_ok {o : InteropActivityOutcome} {outcomes : List Outcome} :
    Is outcomes (.ok o) ↔ o.outcome ∈ outcomes :=
  ⟨fun ⟨_, h, hmem⟩ => Except.ok.inj h ▸ hmem, fun h => ⟨o, rfl, h⟩⟩

@[simp] theorem is_error {cause : Option Identifier} {outcomes : List Outcome} :
    ¬Is outcomes (.error cause) := by
  rintro ⟨_, h, -⟩
  cases h

@[simp] theorem isNot_ok {o : InteropActivityOutcome} {outcomes : List Outcome} :
    IsNot outcomes (.ok o) ↔ o.outcome ∉ outcomes :=
  ⟨fun ⟨_, h, hmem⟩ => Except.ok.inj h ▸ hmem, fun h => ⟨o, rfl, h⟩⟩

@[simp] theorem isNot_error {cause : Option Identifier} {outcomes : List Outcome} :
    ¬IsNot outcomes (.error cause) := by
  rintro ⟨_, h, -⟩
  cases h

end Reports

/-! ## Inputs -/

/-- When the intent's operation reference is an identifier, so is every shorter one. -/
theorem activityInput_ok {value : InteropWorkflowInput} {input : InteropActivityInput}
    {commandRef : Option Identifier}
    (hintent : activityInput value "persist-intent" commandRef = .ok input) (operation : String)
    (hoperation : operation ∈ ["network", "reconcile", "quarantine", "persist-result", "cancel"])
    (commandRef' : Option Identifier) :
    ∃ input', activityInput value operation commandRef' = .ok input' := by
  have hvalid : isIdentifier (value.operationId.val ++ "-" ++ "persist-intent") = true := by
    unfold activityInput Identifier.parse at hintent
    by_contra hno
    rw [dif_neg hno] at hintent
    cases hintent
  have hlength : (value.operationId.val ++ "-" ++ "persist-intent").toList.length ≤ 128 := by
    simp only [isIdentifier, isReference, Bool.and_eq_true, decide_eq_true_eq] at hvalid
    exact hvalid.1.2
  have hprefix : value.operationId.val.toList.length + 15 ≤ 128 := by
    rw [String.toList_append, String.toList_append, List.length_append, List.length_append] at hlength
    have hdash : "-".toList.length = 1 := by decide
    have hname : "persist-intent".toList.length = 14 := by decide
    omega
  have hchars : operation.toList.length ≤ 14 ∧ operation.toList.all identifierChar = true := by
    revert hoperation
    revert operation
    decide
  have hown : value.operationId.val.toList.all identifierChar = true ∧
      1 ≤ value.operationId.val.toList.length := by
    have h := value.operationId.property
    simp only [isIdentifier, isReference, Bool.and_eq_true, decide_eq_true_eq] at h
    exact ⟨h.2, h.1.1⟩
  have hok : isIdentifier (value.operationId.val ++ "-" ++ operation) = true := by
    simp only [isIdentifier, isReference, Bool.and_eq_true, decide_eq_true_eq, String.toList_append,
      List.length_append, List.all_append, hown.1, hchars.2]
    have hdash : "-".toList.length = 1 := by decide
    have hplain : identifierChar '-' = true := by decide
    refine ⟨⟨by omega, by omega⟩, by simp [hplain]⟩
  unfold activityInput Identifier.parse
  rw [dif_pos hok]
  exact ⟨_, rfl⟩

/-! ## Every run -/

/-- The run keeps its promises exactly when its activities answered in order. -/
def Settled (result : Except Failure InteropWorkflowResult) (calls : List Called) : Prop :=
  Promises result calls ↔ Orderly calls

/-- The exceptions: an activity error becomes a failure. -/
def Caught (value : InteropWorkflowInput) (e : Failure) (calls : List Called) : Prop :=
  match e with
  | .activityError _ => ∀ errorCode, Settled (.ok (ended value .failed errorCode)) calls
  | e => Settled (.error e) calls

section Runs

variable {world : RunWorld ω} {value : InteropWorkflowInput} {s : RunState ω}

/-- The judgment of a stage. -/
abbrev Settles (value : InteropWorkflowInput) (x : Flow ω InteropWorkflowResult) (s : RunState ω) :
    Prop :=
  Exec.Sat x s (fun r s' => Settled (.ok r) s'.invocations) fun e s' => Caught value e s'.invocations

/-- A call whose input is fine. -/
theorem sat_call {name : Activity} {operation : String} {commandRef : Option Identifier}
    {Q : InteropActivityOutcome → RunState ω → Prop} {R : Failure → RunState ω → Prop}
    (hinput : ∀ e, activityInput value operation commandRef = .error e → R e s)
    (hok : ∀ input o fields w, activityInput value operation commandRef = .ok input →
      Q o (replied s ⟨name, input⟩ (.ok o) fields w))
    (herror : ∀ input cause fields w, activityInput value operation commandRef = .ok input →
      R (.activityError cause) (replied s ⟨name, input⟩ (.error cause) fields w)) :
    Exec.Sat (callActivity world value name operation commandRef) s Q R := by
  refine Exec.Sat.attempt hinput fun input hbuilt => ?_
  exact sat_activity (fun _ o w _ => hok input o _ w hbuilt) fun _ cause w _ => herror input cause _ w hbuilt

/-- Before the intent: nothing that a promise is about has happened. -/
structure Early (calls : List Called) : Prop where
  only : Only [.authorize, .reserveQuota, .persistIntent, .cancel] calls
  unrecorded : ¬IntentRecorded calls

theorem Early.settled {calls : List Called} (h : Early calls)
    {result : Except Failure InteropWorkflowResult}
    (hresult : ∀ r, result = .ok r → r.state ≠ .completed) : Settled result calls := by
  have hscheduled : ¬Scheduled calls := h.only.not_reported (by decide)
  refine iff_of_true ⟨fun hs => absurd hs hscheduled, fun hno => ?_, fun r hr hc => ?_,
    fun _ _ _ => hscheduled, fun hno => absurd hno h.unrecorded⟩
    ⟨h.only.not_reported (by decide), h.only.not_reported (by decide), fun hno => h.unrecorded hno.1⟩
  · exact absurd hno (h.only.not_reported (by decide))
  · exact absurd hc (hresult r hr)

theorem Early.caught {calls : List Called} (h : Early calls) (e : Failure) : Caught value e calls := by
  cases e with
  | activityError cause =>
    intro errorCode
    refine h.settled fun r hr => ?_
    rw [← Except.ok.inj hr]
    exact (by decide : TaskState.failed ≠ .completed)
  | applicationError type => exact h.settled fun r hr => by cases hr
  | other error => exact h.settled fun r hr => by cases hr

/-- An early call whose reply does not record the intent. -/
theorem Early.concat {calls : List Called} (h : Early calls) {e : Called}
    (hname : e.call.activity ∈ [Activity.authorize, .reserveQuota, .persistIntent, .cancel])
    (hreply : e.call.activity = .persistIntent → ¬Is [.intentRecorded] e.reply) :
    Early (calls ++ [e]) := by
  refine ⟨h.only.concat hname, fun hno => ?_⟩
  rcases reported_concat.mp hno with hno | ⟨hactivity, hno⟩
  · exact h.unrecorded hno
  · exact hreply (List.mem_singleton.mp hactivity) hno

/-- What the run has heard from the peer. -/
structure Heard (outcome : InteropActivityOutcome) (calls : List Called) : Prop where
  intent : IntentRecorded calls
  scheduled : Scheduled calls
  sound : ¬Reported calls (networkActivities ++ [.reconcile, .quarantine, .persistResult]) Erred
  unpersisted : ¬Reported calls [.persistResult] fun _ => True
  uncancelled : ¬Reported calls [.cancel] fun _ => True
  reported : Reported calls (networkActivities ++ [.reconcile]) fun reply => reply = .ok outcome
  favourable : outcome.outcome ∈ [Outcome.ambiguous, .quarantined, .completed, .reconciled] →
    ¬Reported calls (networkActivities ++ [.reconcile])
      (IsNot [.ambiguous, .quarantined, .completed, .reconciled])

theorem Reported.weaken {calls : List Called} {names more : List Activity}
    {P P' : Reply InteropActivityOutcome → Prop} (h : Reported calls names P) (hnames : names ⊆ more)
    (hP : ∀ r, P r → P' r) : Reported calls more P' := by
  obtain ⟨e, he, hname, hp⟩ := h
  exact ⟨e, he, hnames hname, hP _ hp⟩

/-- A run in order, with a result that says no more than it heard. -/
theorem Heard.settled {outcome : InteropActivityOutcome} {calls : List Called} (h : Heard outcome calls)
    {state : TaskState} {errorCode : Option Identifier} (hfailed : state = .failed →
      outcome.outcome ∉ [Outcome.ambiguous, .quarantined, .completed, .reconciled])
    (hcompleted : state ≠ .completed) (hcancelled : state ≠ .cancelled) :
    Settled (.ok (ended value state errorCode)) calls := by
  refine iff_of_true ⟨fun _ r' hr' hstate => ?_, fun hno => ?_, fun r' hr' hstate => ?_,
    fun r' hr' hstate => ?_, fun _ => ⟨_, rfl⟩⟩
    ⟨h.sound, fun hno => h.unpersisted (hno.weaken (by decide) fun _ _ => trivial),
      fun hno => h.uncancelled (hno.2.weaken (by decide) fun _ _ => trivial)⟩
  · rw [← Except.ok.inj hr'] at hstate
    refine h.reported.weaken (by decide) fun reply hreply => ?_
    rw [hreply]
    exact isNot_ok.mpr (hfailed hstate)
  · exact absurd (hno.weaken (by decide) fun _ hr => hr) h.sound
  · rw [← Except.ok.inj hr'] at hstate
    exact absurd hstate hcompleted
  · rw [← Except.ok.inj hr'] at hstate
    exact absurd hstate hcancelled

/-- An activity that fails after the peer was called. -/
theorem unsound_caught {calls : List Called} {e : Called} {cause : Option Identifier}
    (hname : e.call.activity ∈ networkActivities ++ [.reconcile, .persistResult])
    (hreply : e.reply = .error cause) (errorCode : Option Identifier) :
    Settled (.ok (ended value .failed errorCode)) (calls ++ [e]) := by
  refine iff_of_false (fun hkept => ?_) fun horderly => ?_
  · obtain ⟨r, hr, hstate⟩ := hkept.unknown (reported_concat.mpr (.inr ⟨hname, cause, hreply⟩))
    rw [← Except.ok.inj hr] at hstate
    cases hstate
  · refine horderly.sound (reported_concat.mpr (.inr ⟨?_, cause, hreply⟩))
    revert hname
    generalize e.call.activity = a
    revert a
    decide

/-- A later call that did not fail, and that is no cancellation and no record of the result. -/
theorem Heard.concat {outcome : InteropActivityOutcome} {calls : List Called} (h : Heard outcome calls)
    {e : Called} {o : InteropActivityOutcome} (hname : e.call.activity = .quarantine)
    (hreply : e.reply = .ok o) : Heard outcome (calls ++ [e]) := by
  have hother : ∀ {names P}, Activity.quarantine ∉ names →
      ¬Reported calls names P → ¬Reported (calls ++ [e]) names P := by
    intro names P hdisjoint hno hyes
    rcases reported_concat.mp hyes with hyes | ⟨hmem, -⟩
    · exact hno hyes
    · exact hdisjoint (hname ▸ hmem)
  refine ⟨reported_concat.mpr (.inl h.intent), reported_concat.mpr (.inl h.scheduled), ?_,
    hother (by decide) h.unpersisted, hother (by decide) h.uncancelled,
    reported_concat.mpr (.inl h.reported), fun hmem => hother (by decide) (h.favourable hmem)⟩
  intro hno
  rcases reported_concat.mp hno with hno | ⟨-, herred⟩
  · exact h.sound hno
  · rw [hreply] at herred
    exact erred_ok herred

/-- The result is recorded, or the run ends in an error that nothing catches. -/
theorem Heard.persisted {outcome : InteropActivityOutcome} {calls : List Called} (h : Heard outcome calls)
    {e : Called} {o : InteropActivityOutcome} (hname : e.call.activity = .persistResult)
    (hreply : e.reply = .ok o) :
    (o.outcome = .completed → ∀ r : InteropWorkflowResult, r.state = .completed →
      Settled (.ok r) (calls ++ [e])) ∧
    (o.outcome ≠ .completed → ∀ type, Settled (.error (.applicationError type)) (calls ++ [e])) := by
  have hsound : ¬Reported (calls ++ [e]) (networkActivities ++ [.reconcile, .quarantine, .persistResult])
      Erred := by
    intro hno
    rcases reported_concat.mp hno with hno | ⟨-, herred⟩
    · exact h.sound hno
    · rw [hreply] at herred
      exact erred_ok herred
  have hcancel : ¬Reported (calls ++ [e]) [.cancel] (IsNot [.cancelled]) := by
    intro hno
    rcases reported_concat.mp hno with hno | ⟨hmem, -⟩
    · exact h.uncancelled (hno.weaken (by decide) fun _ _ => trivial)
    · rw [hname] at hmem
      exact absurd hmem (by decide)
  constructor
  · intro hcompleted r hstate
    refine iff_of_true ⟨fun _ r' hr' hfailed => ?_, fun hno => ?_, fun _ _ _ => ?_,
      fun r' hr' hcancelled => ?_, fun _ => ⟨r, rfl⟩⟩ ⟨hsound, fun hno => ?_, fun hno => hcancel hno.2⟩
    · rw [← Except.ok.inj hr', hstate] at hfailed
      cases hfailed
    · exact absurd (hno.weaken (by decide) fun _ hr => hr) hsound
    · refine reported_concat.mpr (.inr ⟨by rw [hname]; decide, ?_⟩)
      rw [hreply]
      exact is_ok.mpr (List.mem_singleton.mpr hcompleted)
    · rw [← Except.ok.inj hr', hstate] at hcancelled
      cases hcancelled
    · rcases reported_concat.mp hno with hno | ⟨-, hnot⟩
      · exact h.unpersisted (hno.weaken (by decide) fun _ _ => trivial)
      · rw [hreply] at hnot
        exact isNot_ok.mp hnot (List.mem_singleton.mpr hcompleted)
  · intro hother type
    refine iff_of_false (fun hkept => ?_) fun horderly => ?_
    · obtain ⟨r, hr⟩ := hkept.ends (reported_concat.mpr (.inl h.intent))
      cases hr
    · refine horderly.persisted (reported_concat.mpr (.inr ⟨by rw [hname]; decide, ?_⟩))
      rw [hreply]
      exact isNot_ok.mpr fun hmem => hother (List.mem_singleton.mp hmem)

/-- The quarantine itself fails: the run says FAILED, and the peer was only quarantined. -/
theorem Heard.unquarantined {outcome : InteropActivityOutcome} {calls : List Called}
    (h : Heard outcome calls) (houtcome : outcome.outcome = .quarantined) {e : Called}
    {cause : Option Identifier} (hname : e.call.activity = .quarantine) (hreply : e.reply = .error cause)
    (errorCode : Option Identifier) :
    Settled (.ok (ended value .failed errorCode)) (calls ++ [e]) := by
  refine iff_of_false (fun hkept => ?_) fun horderly => ?_
  · have hreported := hkept.failed (reported_concat.mpr (.inl h.scheduled)) _ rfl rfl
    rcases reported_concat.mp hreported with hno | ⟨hmem, -⟩
    · exact h.favourable (by rw [houtcome]; decide) hno
    · rw [hname] at hmem
      exact absurd hmem (by decide)
  · exact horderly.sound (reported_concat.mpr (.inr ⟨by rw [hname]; decide, cause, hreply⟩))

/-- One more call of a run, as the judgment of the call has it. -/
theorem sat_step {name : Activity} {operation : String} {commandRef : Option Identifier}
    {input : InteropActivityInput} (hinput : activityInput value operation commandRef = .ok input)
    {R : Failure → RunState ω → Prop}
    (hcaught : ∀ (e : Called) cause s', e.call.activity = name → e.reply = .error cause →
      s'.invocations = s.invocations ++ [e] → R (.activityError cause) s') :
    Exec.Sat (callActivity world value name operation commandRef) s
      (fun o s' => ∃ e : Called, s'.invocations = s.invocations ++ [e] ∧ e.call.activity = name ∧
        e.reply = .ok o) R := by
  refine sat_call (fun e he => ?_) (fun i o fields w _ => ⟨_, rfl, rfl, rfl⟩)
    fun i cause fields w _ => hcaught _ cause _ rfl rfl rfl
  rw [hinput] at he
  cases he

theorem settle_settles {outcome : InteropActivityOutcome} {input : InteropActivityInput}
    (h : Heard outcome s.invocations) (hclear : outcome.outcome ≠ .ambiguous)
    (hintent : activityInput value "persist-intent" none = .ok input) :
    Settles value (settle world value outcome) s := by
  unfold Settles settle
  split
  · rename_i hquarantined
    obtain ⟨input', hinput⟩ := activityInput_ok hintent "quarantine" (by decide) none
    refine Exec.Sat.call (sat_step hinput (R := fun e s' => Caught value e s'.invocations) ?_)
      (fun _ _ he => he) ?_
    · intro e cause s' hname hreply hcalls errorCode
      rw [hcalls]
      exact h.unquarantined hquarantined hname hreply errorCode
    · rintro o s' ⟨e, hcalls, hname, hreply⟩
      rw [Exec.sat_pure, hcalls]
      exact (h.concat hname hreply).settled nofun nofun nofun
  · rename_i hquarantined
    split
    · rename_i hunfavourable
      rw [Exec.sat_pure]
      refine h.settled (fun _ hmem => ?_) nofun nofun
      simp only [List.mem_cons, List.not_mem_nil, or_false] at hmem hunfavourable
      rcases hmem with hmem | hmem | hmem
      · exact hclear hmem
      · exact hquarantined hmem
      · exact hunfavourable hmem
    · obtain ⟨input', hinput⟩ := activityInput_ok hintent "persist-result" (by decide) none
      have hset : Exec.Sat (setStage .recordingResult : Flow ω Unit) s
          (fun _ s' => s'.invocations = s.invocations) (fun _ _ => False) := rfl
      refine Exec.Sat.call hset (fun _ _ hno => hno.elim) fun _ s₁ hs₁ => ?_
      rw [← hs₁] at h
      have hrequire : Exec.Sat (requireOutcome world value .persistResult "persist-result" none .completed) s₁
          (fun _ s' => ∀ r : InteropWorkflowResult, r.state = .completed → Settled (.ok r) s'.invocations)
          (fun e s' => Caught value e s'.invocations) := by
        unfold requireOutcome
        refine Exec.Sat.call (sat_step hinput (R := fun e s' => Caught value e s'.invocations) ?_)
          (fun _ _ he => he) ?_
        · intro e cause s' hname hreply hcalls errorCode
          rw [hcalls]
          exact unsound_caught (by rw [hname]; decide) hreply errorCode
        · rintro o s' ⟨e, hcalls, hname, hreply⟩
          have hend := h.persisted hname hreply
          rw [← hcalls] at hend
          exact Exec.Sat.check (fun hno => hend.2 hno _) fun hdone => hend.1 hdone
      exact Exec.Sat.call hrequire (fun _ _ he => he) fun _ s₂ hs₂ => hs₂ _ rfl

/-- Nothing is known but that the intent is recorded. -/
structure Intended (calls : List Called) : Prop where
  only : Only [.authorize, .reserveQuota, .persistIntent] calls
  recorded : IntentRecorded calls

/-- The peer has answered. -/
theorem Intended.heard {calls : List Called} (h : Intended calls) {e : Called}
    {o : InteropActivityOutcome} (hname : e.call.activity ∈ networkActivities)
    (hreply : e.reply = .ok o) : Heard o (calls ++ [e]) := by
  have hother : ∀ {names P}, (∀ a ∈ networkActivities, a ∉ names) →
      (∀ a ∈ [Activity.authorize, .reserveQuota, .persistIntent], a ∉ names) →
      ¬Reported (calls ++ [e]) names P := by
    intro names P hnet hdisjoint hyes
    rcases reported_concat.mp hyes with hyes | ⟨hmem, -⟩
    · exact h.only.not_reported hdisjoint hyes
    · exact hnet _ hname hmem
  refine ⟨reported_concat.mpr (.inl h.recorded), reported_concat.mpr (.inr ⟨hname, trivial⟩), ?_,
    hother (by decide) (by decide), hother (by decide) (by decide),
    reported_concat.mpr (.inr ⟨List.mem_append_left _ hname, hreply⟩), fun hmem hno => ?_⟩
  · intro hno
    rcases reported_concat.mp hno with hno | ⟨-, herred⟩
    · exact h.only.not_reported (by decide) hno
    · rw [hreply] at herred
      exact erred_ok herred
  · rcases reported_concat.mp hno with hno | ⟨-, hnot⟩
    · exact h.only.not_reported (by decide) hno
    · rw [hreply] at hnot
      exact isNot_ok.mp hnot hmem

/-- The reconciliation has answered. -/
theorem Heard.reconciled {outcome o : InteropActivityOutcome} {calls : List Called}
    (h : Heard outcome calls) (hambiguous : outcome.outcome = .ambiguous) {e : Called}
    (hname : e.call.activity = .reconcile) (hreply : e.reply = .ok o) : Heard o (calls ++ [e]) := by
  have hother : ∀ {names P}, Activity.reconcile ∉ names →
      ¬Reported calls names P → ¬Reported (calls ++ [e]) names P := by
    intro names P hdisjoint hno hyes
    rcases reported_concat.mp hyes with hyes | ⟨hmem, -⟩
    · exact hno hyes
    · exact hdisjoint (hname ▸ hmem)
  refine ⟨reported_concat.mpr (.inl h.intent), reported_concat.mpr (.inl h.scheduled), ?_,
    hother (by decide) h.unpersisted, hother (by decide) h.uncancelled,
    reported_concat.mpr (.inr ⟨by rw [hname]; decide, hreply⟩), fun hmem hno => ?_⟩
  · intro hno
    rcases reported_concat.mp hno with hno | ⟨-, herred⟩
    · exact h.sound hno
    · rw [hreply] at herred
      exact erred_ok herred
  · rcases reported_concat.mp hno with hno | ⟨-, hnot⟩
    · exact h.favourable (by rw [hambiguous]; decide) hno
    · rw [hreply] at hnot
      exact isNot_ok.mp hnot hmem

theorem callPeer_settles {input : InteropActivityInput} (h : Intended s.invocations)
    (hintent : activityInput value "persist-intent" none = .ok input) :
    Settles value (callPeer world value) s := by
  have hnetwork : networkActivity value ∈ networkActivities := by
    unfold networkActivity
    split <;> decide
  obtain ⟨input', hinput⟩ := activityInput_ok hintent "network" (by decide) none
  have hset : ∀ (stage : Stage) (t : RunState ω), Exec.Sat (setStage stage : Flow ω Unit) t
      (fun _ t' => t'.invocations = t.invocations) (fun _ _ => False) := fun _ _ => rfl
  unfold Settles callPeer
  refine Exec.Sat.call (hset .network s) (fun _ _ hno => hno.elim) fun _ s₁ hs₁ => ?_
  refine Exec.Sat.call (sat_step hinput (R := fun e s' => Caught value e s'.invocations) ?_)
    (fun _ _ he => he) ?_
  · intro e cause s' hname hreply hcalls errorCode
    rw [hcalls]
    exact unsound_caught (by rw [hname]; exact List.mem_append_left _ hnetwork) hreply errorCode
  · rintro o s₂ ⟨e, hcalls, hname, hreply⟩
    have hheard : Heard o s₂.invocations := by
      rw [hcalls, hs₁]
      exact h.heard (hname ▸ hnetwork) hreply
    split
    · rename_i hambiguous
      obtain ⟨input₂, hinput₂⟩ := activityInput_ok hintent "reconcile" (by decide) none
      refine Exec.Sat.call (hset .reconciling s₂) (fun _ _ hno => hno.elim) fun _ s₃ hs₃ => ?_
      refine Exec.Sat.call (sat_step hinput₂ (R := fun e s' => Caught value e s'.invocations) ?_)
        (fun _ _ he => he) ?_
      · intro e cause s' hname hreply hcalls errorCode
        rw [hcalls]
        exact unsound_caught (by rw [hname]; decide) hreply errorCode
      · rintro o' s₄ ⟨e', hcalls', hname', hreply'⟩
        have hheard' : Heard o' s₄.invocations := by
          rw [hcalls', hs₃]
          exact hheard.reconciled hambiguous hname' hreply'
        split
        · exact hheard'.settled nofun nofun nofun
        · rename_i hreconciled
          refine settle_settles hheard' ?_ hintent
          rw [not_not.mp hreconciled]
          decide
    · rename_i hclear
      exact settle_settles hheard hclear hintent

/-- How `_require` fails. -/
inductive Refused (value : InteropWorkflowInput) (name : Activity) (operation : String)
    (commandRef : Option Identifier) (expected : Outcome) (calls : List Called) :
    Failure → List Called → Prop
  | input {e : Failure} (h : activityInput value operation commandRef = .error e) :
    Refused value name operation commandRef expected calls e calls
  | erred {c : Called} {cause : Option Identifier} (hname : c.call.activity = name)
    (hreply : c.reply = .error cause) :
    Refused value name operation commandRef expected calls (.activityError cause) (calls ++ [c])
  | unexpected {c : Called} {o : InteropActivityOutcome} {type : Identifier}
    (hname : c.call.activity = name) (hreply : c.reply = .ok o) (houtcome : o.outcome ≠ expected) :
    Refused value name operation commandRef expected calls (.applicationError type) (calls ++ [c])

/-- The call that `_require` made, when it returns. -/
structure Answered (name : Activity) (expected : Outcome) (calls calls' : List Called) : Prop where
  answer : ∃ (c : Called) (o : InteropActivityOutcome), calls' = calls ++ [c] ∧
    c.call.activity = name ∧ c.reply = .ok o ∧ o.outcome = expected

/-- `_require`, after the stage is set. -/
theorem sat_staged (stage : Stage) (name : Activity) (operation : String)
    (commandRef : Option Identifier) (expected : Outcome) :
    Exec.Sat (do setStage stage; requireOutcome world value name operation commandRef expected) s
      (fun _ s' => Answered name expected s.invocations s'.invocations ∧
        ∃ input, activityInput value operation commandRef = .ok input)
      (fun e s' => Refused value name operation commandRef expected s.invocations e s'.invocations) := by
  have hset : Exec.Sat (setStage stage : Flow ω Unit) s
      (fun _ s' => s'.invocations = s.invocations) (fun _ _ => False) := rfl
  refine Exec.Sat.call hset (fun _ _ hno => hno.elim) fun _ s₁ hs₁ => ?_
  rw [← hs₁]
  unfold requireOutcome
  refine Exec.Sat.call (sat_call
    (Q := fun o s' => ∃ input, activityInput value operation commandRef = .ok input ∧
      ∃ c : Called, s'.invocations = s₁.invocations ++ [c] ∧ c.call.activity = name ∧ c.reply = .ok o)
    (R := fun e s' => Refused value name operation commandRef expected s₁.invocations e s'.invocations)
    (fun e he => .input he)
    (fun input o fields w hinput => ⟨input, hinput, _, rfl, rfl, rfl⟩)
    (fun input cause fields w hinput => .erred rfl rfl)) (fun _ _ he => he) ?_
  rintro o s' ⟨input, hinput, c, hcalls, hname, hreply⟩
  refine Exec.Sat.check (fun hno => ?_) fun hexpected => ?_
  · rw [hcalls]
    exact .unexpected hname hreply hno
  · exact ⟨⟨⟨c, o, hcalls, hname, hreply, hexpected⟩⟩, input, hinput⟩

/-- A stage at the head of a body. -/
theorem staged_call {stage : Stage} {name : Activity} {operation : String}
    {commandRef : Option Identifier} {expected : Outcome}
    {k : InteropActivityOutcome → Flow ω InteropWorkflowResult}
    {P : InteropWorkflowResult → RunState ω → Prop} {R : Failure → RunState ω → Prop}
    (hfail : ∀ e s', Refused value name operation commandRef expected s.invocations e s'.invocations →
      R e s')
    (h : ∀ o s', Answered name expected s.invocations s'.invocations →
      (∃ input, activityInput value operation commandRef = .ok input) → Exec.Sat (k o) s' P R) :
    Exec.Sat (do
      setStage stage
      let o ← requireOutcome world value name operation commandRef expected
      k o) s P R := by
  have hstage := @sat_staged ω world value s stage name operation commandRef expected
  rw [Exec.sat_bind] at hstage ⊢
  refine hstage.mono (fun _ s₁ h₁ => ?_) hfail
  exact Exec.Sat.call h₁ hfail fun o s₂ hs₂ => h o s₂ hs₂.1 hs₂.2

/-- `_cancel_if_requested` does nothing, or the cancellation is confirmed, or `_require` fails. -/
theorem sat_cancelIfRequested :
    Exec.Sat (cancelIfRequested world value) s
      (fun result s' => (result = none ∧ s'.invocations = s.invocations) ∨
        (result = some (ended value .cancelled none) ∧
          Answered .cancel .cancelled s.invocations s'.invocations))
      (fun e s' => Refused value .cancel "cancel" s.fields.cancelCommandRef .cancelled s.invocations e
        s'.invocations) := by
  unfold cancelIfRequested
  rw [Exec.sat_bind, Exec.sat_read]
  split
  · exact .inl ⟨rfl, rfl⟩
  · have hcancel := @sat_staged ω world value s .cancelling .cancel "cancel" s.fields.cancelCommandRef
      .cancelled
    rw [Exec.sat_bind] at hcancel ⊢
    refine hcancel.mono (fun _ s₁ h₁ => ?_) fun _ _ he => he
    exact Exec.Sat.call h₁ (fun _ _ he => he) fun _ s₂ hs₂ => .inr ⟨rfl, hs₂.1⟩

/-- An early stage that fails leaves no promise broken. -/
theorem Early.refused {calls calls' : List Called} (h : Early calls) {name : Activity}
    {operation : String} {commandRef : Option Identifier} {expected : Outcome} {e : Failure}
    (hname : name ∈ [Activity.authorize, .reserveQuota, .persistIntent, .cancel])
    (hexpected : name = .persistIntent → expected = .intentRecorded)
    (hrefused : Refused value name operation commandRef expected calls e calls') :
    Caught value e calls' := by
  cases hrefused with
  | input he => exact h.caught _
  | erred hcall hreply =>
    refine (h.concat (hcall ▸ hname) fun _ his => ?_).caught _
    rw [hreply] at his
    exact is_error his
  | unexpected hcall hreply houtcome =>
    refine (h.concat (hcall ▸ hname) fun hintent his => ?_).caught _
    rw [hreply] at his
    refine houtcome ?_
    rw [hexpected (hcall ▸ hintent)]
    exact List.mem_singleton.mp (is_ok.mp his)

/-- An early stage other than the intent goes on. -/
theorem Early.answered {calls calls' : List Called} (h : Early calls) {name : Activity}
    {expected : Outcome} (hname : name ∈ [Activity.authorize, .reserveQuota, .persistIntent, .cancel])
    (hother : name ≠ .persistIntent) (hanswer : Answered name expected calls calls') :
    Early calls' := by
  obtain ⟨c, o, rfl, hcall, -, -⟩ := hanswer
  exact h.concat (hcall ▸ hname) fun hintent => absurd (hcall ▸ hintent) hother

/-- The cancellation of a run whose intent is recorded, whatever comes of it. -/
theorem Intended.refused {calls calls' : List Called} (h : Intended calls)
    {input : InteropActivityInput} (hintent : activityInput value "persist-intent" none = .ok input)
    {commandRef : Option Identifier} {e : Failure}
    (hrefused : Refused value .cancel "cancel" commandRef .cancelled calls e calls') :
    Caught value e calls' := by
  have hother : ∀ {c : Called} {names P}, c.call.activity = .cancel → Activity.cancel ∉ names →
      (∀ a ∈ [Activity.authorize, .reserveQuota, .persistIntent], a ∉ names) →
      ¬Reported (calls ++ [c]) names P := by
    intro c names P hcall hno hdisjoint hyes
    rcases reported_concat.mp hyes with hyes | ⟨hmem, -⟩
    · exact h.only.not_reported hdisjoint hyes
    · exact hno (hcall ▸ hmem)
  cases hrefused with
  | input he =>
    -- the operation reference of the intent is longer than this one
    obtain ⟨input', hinput⟩ := activityInput_ok hintent "cancel" (by decide) commandRef
    rw [hinput] at he
    cases he
  | @erred c cause hcall hreply =>
    intro errorCode
    refine iff_of_true ⟨fun hs => absurd hs (hother hcall (by decide) (by decide)),
      fun hno => absurd hno (hother hcall (by decide) (by decide)), fun r hr hstate => ?_,
      fun _ _ _ => hother hcall (by decide) (by decide), fun _ => ⟨_, rfl⟩⟩
      ⟨hother hcall (by decide) (by decide), hother hcall (by decide) (by decide), fun hno => ?_⟩
    · rw [← Except.ok.inj hr] at hstate
      cases hstate
    · rcases reported_concat.mp hno.2 with hno | ⟨-, hnot⟩
      · exact h.only.not_reported (by decide) hno
      · rw [hreply] at hnot
        exact isNot_error hnot
  | @unexpected c o type hcall hreply houtcome =>
    refine iff_of_false (fun hkept => ?_) fun horderly => ?_
    · obtain ⟨r, hr⟩ := hkept.ends (reported_concat.mpr (.inl h.recorded))
      cases hr
    · refine horderly.confirmed ⟨reported_concat.mpr (.inl h.recorded),
        reported_concat.mpr (.inr ⟨by rw [hcall]; decide, ?_⟩)⟩
      rw [hreply]
      exact isNot_ok.mpr fun hmem => houtcome (List.mem_singleton.mp hmem)

/-- A confirmed cancellation between the intent and the network call. -/
theorem Intended.cancelled {calls calls' : List Called} (h : Intended calls)
    (hanswer : Answered .cancel .cancelled calls calls') :
    Settled (.ok (ended value .cancelled none)) calls' := by
  obtain ⟨c, o, rfl, hcall, hreply, houtcome⟩ := hanswer
  have hother : ∀ {names P}, Activity.cancel ∉ names →
      (∀ a ∈ [Activity.authorize, .reserveQuota, .persistIntent], a ∉ names) →
      ¬Reported (calls ++ [c]) names P := by
    intro names P hno hdisjoint hyes
    rcases reported_concat.mp hyes with hyes | ⟨hmem, -⟩
    · exact h.only.not_reported hdisjoint hyes
    · exact hno (hcall ▸ hmem)
  refine iff_of_true ⟨fun hs => absurd hs (hother (by decide) (by decide)),
    fun hno => absurd hno (hother (by decide) (by decide)), fun r hr hstate => ?_,
    fun _ _ _ => hother (by decide) (by decide), fun _ => ⟨_, rfl⟩⟩
    ⟨hother (by decide) (by decide), hother (by decide) (by decide), fun hno => ?_⟩
  · rw [← Except.ok.inj hr] at hstate
    cases hstate
  · rcases reported_concat.mp hno.2 with hno | ⟨-, hnot⟩
    · exact h.only.not_reported (by decide) hno
    · rw [hreply] at hnot
      exact isNot_ok.mp hnot (List.mem_singleton.mpr houtcome)

theorem afterIntent_settles {input : InteropActivityInput} (h : Intended s.invocations)
    (hintent : activityInput value "persist-intent" none = .ok input) :
    Settles value (afterIntent world value) s := by
  unfold Settles afterIntent
  refine Exec.Sat.call sat_cancelIfRequested (fun e s' he => h.refused hintent he) ?_
  rintro result s' (⟨rfl, hcalls⟩ | ⟨rfl, hanswer⟩)
  · rw [← hcalls] at h
    exact callPeer_settles h hintent
  · exact h.cancelled hanswer

/-- The calls of a run up to its network call are these. -/
theorem Answered.only {name : Activity} {expected : Outcome} {calls calls' : List Called}
    {allowed : List Activity} (hanswer : Answered name expected calls calls')
    (h : Only allowed calls) (hname : name ∈ allowed) : Only allowed calls' := by
  obtain ⟨c, o, rfl, hcall, -, -⟩ := hanswer
  exact h.concat (hcall ▸ hname)

theorem lifecycle_settles (h : s.invocations = []) : Settles value (lifecycle world value) s := by
  have hstart : Early s.invocations := by
    rw [h]
    refine ⟨fun _ he => ?_, ?_⟩
    · cases he
    · rintro ⟨_, he, -⟩
      cases he
  have hnone : ∀ allowed, Only allowed s.invocations := by
    intro allowed e he
    rw [h] at he
    cases he
  unfold Settles lifecycle
  refine Exec.Sat.call sat_cancelIfRequested
    (fun e s' he => hstart.refused (by decide) (by decide) he) ?_
  rintro result s' (⟨rfl, hcalls⟩ | ⟨rfl, hanswer⟩)
  · -- three required outcomes, then the peer
    rw [← hcalls] at hstart hnone
    refine staged_call (fun e s₁ he => hstart.refused (by decide) (by decide) he) fun _ s₁ h₁ _ => ?_
    have hreserve := hstart.answered (by decide) (by decide) h₁
    refine staged_call (fun e s₂ he => hreserve.refused (by decide) (by decide) he) fun _ s₂ h₂ _ => ?_
    have hrecord := hreserve.answered (by decide) (by decide) h₂
    refine staged_call (fun e s₃ he => hrecord.refused (by decide) (fun _ => rfl) he)
      fun _ s₃ h₃ hinput => ?_
    obtain ⟨input, hinput⟩ := hinput
    refine afterIntent_settles ⟨?_, ?_⟩ hinput
    · exact h₃.only (h₂.only (h₁.only (hnone _) (by decide)) (by decide)) (by decide)
    · obtain ⟨c, o, hlast, hcall, hreply, houtcome⟩ := h₃
      rw [IntentRecorded, hlast]
      refine reported_concat.mpr (.inr ⟨List.mem_singleton.mpr hcall, ?_⟩)
      rw [hreply]
      exact is_ok.mpr (List.mem_singleton.mpr houtcome)
  · refine (hstart.answered (by decide) (by decide) hanswer).settled fun r hr => ?_
    rw [← Except.ok.inj hr]
    exact (by decide : TaskState.cancelled ≠ .completed)

end Runs

/-! ## A failure that may not have been one -/

def sampleInput : InteropWorkflowInput where
  tenantRef := ⟨"t", computed⟩
  principalRef := code "principal"
  operationId := code "operation"
  peerId := code "peer"
  operation := .mcpInvoke
  requestDigest := ⟨String.ofList (List.replicate 64 'a'), computed⟩
  fenceToken := code "fence"

def sampleTurn (outcome : Outcome) : Turn Signal (Reply InteropActivityOutcome) :=
  ⟨[], .ok ⟨outcome, none, none, none⟩⟩

/-- The network activity times out: what the peer did is unknown. -/
def sampleTurns : List (Turn Signal (Reply InteropActivityOutcome)) :=
  [sampleTurn .authorized, sampleTurn .reserved, sampleTurn .intentRecorded, ⟨[], .error none⟩]

def sampleRun :
    Except Failure InteropWorkflowResult × RunState (List (Turn Signal (Reply InteropActivityOutcome))) :=
  execute (World.scripted (sampleTurn .failed)) sampleInput (.start .init sampleTurns)

end InteropTemporal

end Aegis
