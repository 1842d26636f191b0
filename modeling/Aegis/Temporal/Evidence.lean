/-
  THE EVIDENCE WORKFLOW: authorize, fetch page after page, complete.

  An activity that fails is handed to `reconcile`.  An activity that ANSWERS, but with something else than
  what was asked for, raises an application error that nothing catches, and so does a last page that has a
  next one.  A query is left alone exactly then (`abandons_never_iff`).
-/
import Mathlib
import Aegis.Temporal.Base
import Aegis.Evidence.Records

namespace Aegis

namespace EvidenceTemporal

open Workflow Temporal
open Evidence (QueryStatus)

/-! ## Messages -/

structure EvidenceWorkflowInput where
  tenantRef : OpaqueReference
  actorRef : Identifier
  requestRef : Identifier
  runId : Identifier
  queryRef : Identifier
  workflowId : Identifier
  maximumPages : Int

structure EvidenceActivityInput where
  tenantRef : OpaqueReference
  actorRef : Identifier
  requestRef : Identifier
  runId : Identifier
  queryRef : Identifier
  operationId : Identifier
  pageNumber : Int
  commandRef : Option Identifier

inductive Outcome where
  | authorized | pageComplete | queryComplete | cancelled | denied
deriving DecidableEq, Repr

structure EvidenceActivityOutcome where
  outcome : Outcome
  hasNextPage : Bool
  cursorRef : Option Identifier
  bundleRef : Option Identifier

structure EvidenceWorkflowResult where
  queryRef : Identifier
  status : QueryStatus
  bundleRef : Option Identifier
  failureCode : Option Identifier

/-- The activities, by the name they are registered under. -/
inductive Activity where
  | authorize | fetchPage | complete | cancel | reconcile
deriving DecidableEq, Repr

def Activity.name : Activity → String
  | .authorize => "aegis.evidence.authorize"
  | .fetchPage => "aegis.evidence.fetch-page"
  | .complete => "aegis.evidence.complete"
  | .cancel => "aegis.evidence.cancel"
  | .reconcile => "aegis.evidence.reconcile"

/-- A call of an activity, and how often it is attempted. -/
structure Call where
  activity : Activity
  input : EvidenceActivityInput
  attempts : Nat

/-! ## Signals -/

inductive Signal where
  | requestCancel (commandRef : String)

inductive Stage where
  | created | authorizing | fetchingPage | completing | completed | reconciling | cancelling | cancelled
deriving DecidableEq, Repr

structure WorkflowFields where
  cancelRequested : Bool
  cancelRef : Option String
  stage : Stage

def WorkflowFields.init : WorkflowFields := ⟨false, none, .created⟩

/-- The signal handler. -/
def handle (f : WorkflowFields) : Signal → WorkflowFields
  | .requestCancel commandRef =>
    if f.cancelRequested = true ∨ commandRef.toList.length = 0 ∨ 128 < commandRef.toList.length then f
    else { f with cancelRequested := true, cancelRef := some commandRef }

/-! ## The workflow -/

abbrev RunState (ω : Type) : Type := Progress Call (Reply EvidenceActivityOutcome) WorkflowFields ω

abbrev RunWorld (ω : Type) : Type := World Signal Call (Reply EvidenceActivityOutcome) ω

abbrev Flow (ω α : Type) : Type := Exec Failure (RunState ω) α

def code (s : String) (h : isIdentifier s = true := by exact computed) : Identifier := ⟨s, h⟩

/-- The validation of an optional `Identifier` field. -/
def optionalIdentifier (place : String) : Option String → Except Error (Option Identifier)
  | none => .ok none
  | some s => (Identifier.parse place s).map some

/-- `_input`. -/
def activityInput (value : EvidenceWorkflowInput) (operation : String) (pageNumber : Int)
    (commandRef : Option String) : Except Error EvidenceActivityInput := do
  let operationId ← Identifier.parse "EvidenceActivityInput.operation_id"
    ("evidence-" ++ operation ++ ":" ++ value.queryRef.val)
  let commandRef ← optionalIdentifier "EvidenceActivityInput.command_ref" commandRef
  pure { tenantRef := value.tenantRef, actorRef := value.actorRef, requestRef := value.requestRef,
         runId := value.runId, queryRef := value.queryRef, operationId, pageNumber, commandRef }

variable {ω : Type}

section Run

variable (world : RunWorld ω) (value : EvidenceWorkflowInput)

/-- `self._stage = ...`. -/
def setStage (stage : Stage) : Flow ω Unit := assign fun f => { f with stage }

/-- `_activity`, on an input built first. -/
def callActivity (name : Activity) (operation : String) (pageNumber : Int) (commandRef : Option String)
    (attempts : Nat) : Flow ω EvidenceActivityOutcome := do
  let input ← Exec.lift ((activityInput value operation pageNumber commandRef).mapError Failure.other)
  activity handle world ⟨name, input, attempts⟩

/-- `_cancel_if_requested`. -/
def cancelIfRequested (pageNumber : Int) : Flow ω (Option EvidenceWorkflowResult) := do
  let s ← Exec.read
  if s.fields.cancelRequested = false then pure none
  else do
    Exec.require (s.fields.cancelRef ≠ none) (.applicationError (code "IntegrityFailure"))
    setStage .cancelling
    let outcome ← callActivity world value .cancel "cancel" pageNumber s.fields.cancelRef 3
    Exec.require (outcome.outcome = .cancelled) (.applicationError (code "IntegrityFailure"))
    setStage .cancelled
    pure (some { queryRef := value.queryRef, status := .cancelled, bundleRef := none, failureCode := none })

/-- The loop over the pages, from `page` on: a result when the query is cancelled. -/
def fetchPages (page : Nat) : Nat → Flow ω (Option EvidenceWorkflowResult)
  | 0 => Exec.raise (.applicationError (code "PayloadRejected"))
  | remaining + 1 => do
    match ← cancelIfRequested world value page with
    | some cancelled => pure (some cancelled)
    | none => do
      setStage .fetchingPage
      let fetched ← callActivity world value .fetchPage ("page-" ++ toString page) page none 3
      Exec.require (fetched.outcome = .pageComplete) (.applicationError (code "IntegrityFailure"))
      if fetched.hasNextPage = false then pure none
      else do
        Exec.require (fetched.cursorRef ≠ none) (.applicationError (code "IntegrityFailure"))
        fetchPages (page + 1) remaining

/-- After the last page. -/
def completeQuery : Flow ω EvidenceWorkflowResult := do
  match ← cancelIfRequested world value value.maximumPages with
  | some cancelled => pure cancelled
  | none => do
    setStage .completing
    let completed ← callActivity world value .complete "complete" 0 none 3
    Exec.require (completed.outcome = .queryComplete ∧ completed.bundleRef ≠ none)
      (.applicationError (code "IntegrityFailure"))
    setStage .completed
    pure { queryRef := value.queryRef, status := .completed, bundleRef := completed.bundleRef,
           failureCode := none }

/-- The body of the `try`. -/
def lifecycle : Flow ω EvidenceWorkflowResult := do
  setStage .authorizing
  let authorized ← callActivity world value .authorize "authorize" 0 none 3
  if authorized.outcome ≠ .authorized then
    pure { queryRef := value.queryRef, status := .failed, bundleRef := none,
           failureCode := some (code "authorization_denied") }
  else do
    match ← fetchPages world value 1 value.maximumPages.toNat with
    | some cancelled => pure cancelled
    | none => completeQuery world value

/-- `with suppress(ActivityError): ...`. -/
def suppressed (x : Flow ω Unit) : Flow ω Unit :=
  Exec.catching x fun e =>
    match e with
    | .activityError _ => pure ()
    | e => Exec.raise e

/-- The handler of the `try`. -/
def reconcileQuery : Flow ω EvidenceWorkflowResult := do
  setStage .reconciling
  suppressed do
    let _ ← callActivity world value .reconcile "reconcile" 0 none 1
    pure ()
  pure { queryRef := value.queryRef, status := .reconciliationRequired, bundleRef := none,
         failureCode := some (code "activity_outcome_ambiguous") }

/-- `run`. -/
def run : Flow ω EvidenceWorkflowResult := do
  Exec.require (1 ≤ value.maximumPages ∧ value.maximumPages ≤ 100)
    (.applicationError (code "PayloadRejected"))
  Exec.catching (lifecycle world value) fun e =>
    match e with
    | .activityError _ => reconcileQuery world value
    | e => Exec.raise e

end Run

/-! ## Never abandoned -/

/-- One activity of a run. -/
abbrev Called := Invocation Call (Reply EvidenceActivityOutcome) WorkflowFields

/-- This activity answered with this outcome. -/
def Answered (calls : List Called) (name : Activity) (outcome : Outcome) : Prop :=
  ∃ e ∈ calls, e.call.activity = name ∧ ∃ o, e.reply = .ok o ∧ o.outcome = outcome

/-- `reconcile` was called, and no page was fetched after it. -/
def ReconciledLast (calls : List Called) : Prop :=
  ∃ before e after, calls = before ++ e :: after ∧ e.call.activity = .reconcile ∧
    ∀ c ∈ after, c.call.activity ≠ .fetchPage

/-- The query is completed, cancelled or handed to `reconcile`. -/
def Concluded (calls : List Called) : Prop :=
  Answered calls .complete .queryComplete ∨ Answered calls .cancel .cancelled ∨ ReconciledLast calls

/-- What a run of the workflow promises, however it ends. -/
structure NeverAbandons (result : Except Failure EvidenceWorkflowResult) (calls : List Called) : Prop where
  concluded : Answered calls .authorize .authorized → Concluded calls
  completed : ∀ r, result = .ok r → r.status = .completed → Answered calls .complete .queryComplete
  cancelled : ∀ r, result = .ok r → r.status = .cancelled → Answered calls .cancel .cancelled

/-- A reference to a cancellation, if there is one, is an identifier. -/
def Referable (f : WorkflowFields) : Prop := ∀ ref, f.cancelRef = some ref → isIdentifier ref = true

/-- What an activity has to answer, if it answers: `maximumPages` is the bound of the query. -/
def Fine (maximumPages : Int) (e : Called) : Prop :=
  ∀ o, e.reply = .ok o →
    match e.call.activity with
    | .authorize => o.outcome = .authorized → Referable e.fields
    | .fetchPage => o.outcome = .pageComplete ∧ Referable e.fields ∧
        (o.hasNextPage = true → o.cursorRef ≠ none ∧ e.call.input.pageNumber < maximumPages)
    | .complete => o.outcome = .queryComplete
    | .cancel => o.outcome = .cancelled
    | .reconcile => True

/-- Every answer is one that was asked for. -/
def Orderly (value : EvidenceWorkflowInput) (calls : List Called) : Prop :=
  ∀ e ∈ calls, Fine value.maximumPages e


/-! ## Inputs -/

/-- The reference of `authorize` is the longest: where it is an identifier, so is that of every other
    activity. -/
theorem activityInput_ok {value : EvidenceWorkflowInput}
    (hauthorize : ∃ input, activityInput value "authorize" 0 none = .ok input) {operation : String}
    (hlength : operation.toList.length ≤ 9) (hchars : operation.toList.all identifierChar = true)
    (pageNumber : Int) {commandRef : Option String}
    (href : ∀ ref, commandRef = some ref → isIdentifier ref = true) :
    ∃ input, activityInput value operation pageNumber commandRef = .ok input ∧
      input.pageNumber = pageNumber := by
  have hvalid : isIdentifier ("evidence-" ++ "authorize" ++ ":" ++ value.queryRef.val) = true := by
    obtain ⟨input, hinput⟩ := hauthorize
    by_contra hno
    unfold activityInput Identifier.parse at hinput
    rw [dif_neg hno] at hinput
    cases hinput
  have hquery : value.queryRef.val.toList.all identifierChar = true := by
    have h := value.queryRef.property
    simp only [isIdentifier, isReference, Bool.and_eq_true] at h
    exact h.2
  have hid : isIdentifier ("evidence-" ++ operation ++ ":" ++ value.queryRef.val) = true := by
    have hhead : "evidence-".toList.length = 9 ∧ "evidence-".toList.all identifierChar = true := by decide
    have hcolon : ":".toList.length = 1 ∧ ":".toList.all identifierChar = true := by decide
    have hname : "authorize".toList.length = 9 := by decide
    simp only [isIdentifier, isReference, Bool.and_eq_true, decide_eq_true_eq, String.toList_append,
      List.length_append, List.all_append] at hvalid ⊢
    refine ⟨⟨by omega, by omega⟩, ⟨⟨hhead.2, hchars⟩, hcolon.2⟩, hquery⟩
  have hcommand : ∃ ref, optionalIdentifier "EvidenceActivityInput.command_ref" commandRef = .ok ref := by
    cases commandRef with
    | none => exact ⟨none, rfl⟩
    | some ref =>
      refine ⟨some ⟨ref, href ref rfl⟩, ?_⟩
      show ((Identifier.parse _ ref).map some : Except Error (Option Identifier)) = _
      rw [Identifier.parse, dif_pos (href ref rfl)]
      rfl
  obtain ⟨ref, href⟩ := hcommand
  refine ⟨{ tenantRef := value.tenantRef, actorRef := value.actorRef, requestRef := value.requestRef,
            runId := value.runId, queryRef := value.queryRef, operationId := ⟨_, hid⟩, pageNumber,
            commandRef := ref }, ?_, rfl⟩
  unfold activityInput
  rw [Identifier.parse, dif_pos hid, href]
  rfl

theorem no_reference : ∀ ref, (none : Option String) = some ref → isIdentifier ref = true := by
  intro ref h
  cases h

/-- The command reference of an input is an identifier. -/
theorem activityInput_command {value : EvidenceWorkflowInput} {operation : String} {pageNumber : Int}
    {commandRef : Option String} {input : EvidenceActivityInput}
    (h : activityInput value operation pageNumber commandRef = .ok input) :
    ∀ ref, commandRef = some ref → isIdentifier ref = true := by
  rintro ref rfl
  obtain ⟨_, -, hrest⟩ := except_bind_ok.mp h
  obtain ⟨_, hparsed, -⟩ := except_bind_ok.mp hrest
  by_contra hno
  change ((Identifier.parse _ ref).map some : Except Error (Option Identifier)) = _ at hparsed
  rw [Identifier.parse, dif_neg hno] at hparsed
  cases hparsed

theorem page_operation : ∀ page ≤ 100, ("page-" ++ toString page).toList.length ≤ 9 ∧
    ("page-" ++ toString page).toList.all identifierChar = true := by decide +kernel

/-! ## Every run -/

/-- The cancellation flag and its reference are set together. -/
def Signalled (f : WorkflowFields) : Prop := f.cancelRequested = true ↔ f.cancelRef ≠ none

theorem signalled_handle (f : WorkflowFields) (signal : Signal) (h : Signalled f) :
    Signalled (handle f signal) := by
  cases signal with
  | requestCancel commandRef =>
    show Signalled (if _ then f else _)
    split
    · exact h
    · exact ⟨fun _ => Option.some_ne_none _, fun _ => rfl⟩

/-- The run keeps its promise exactly when its activities answered in order. -/
def Settled (value : EvidenceWorkflowInput) (result : Except Failure EvidenceWorkflowResult)
    (calls : List Called) : Prop := NeverAbandons result calls ↔ Orderly value calls

/-- What the handler of the body meets: an activity that failed, after answers in order, or an exception
    that ends the run. -/
def Caught (value : EvidenceWorkflowInput) (e : Failure) (calls : List Called) : Prop :=
  match e with
  | .activityError _ => Orderly value calls ∧ ∃ input, activityInput value "authorize" 0 none = .ok input
  | e => Settled value (.error e) calls

/-- The run is authorized and fetches pages, or has fetched them: the next one is `page`. -/
structure Going (value : EvidenceWorkflowInput) (page : Nat) (s : RunState ω) : Prop where
  input : ∃ input, activityInput value "authorize" 0 none = .ok input
  authorized : Answered s.invocations .authorize .authorized
  only : ∀ e ∈ s.invocations, e.call.activity ∈ [Activity.authorize, .fetchPage]
  signalled : Signalled s.fields
  orderly : Referable s.fields ∧ (page : Int) ≤ value.maximumPages ↔ Orderly value s.invocations

section Runs

variable {world : RunWorld ω} {value : EvidenceWorkflowInput} {s : RunState ω} {calls : List Called}
  {e : Called}

theorem orderly_concat :
    Orderly value (calls ++ [e]) ↔ Orderly value calls ∧ Fine value.maximumPages e := by
  unfold Orderly
  constructor
  · intro h
    exact ⟨fun c hc => h c (List.mem_append_left _ hc), h e (List.mem_append_right _ List.mem_cons_self)⟩
  · rintro ⟨hcalls, he⟩ c hc
    rcases List.mem_append.mp hc with hc | hc
    · exact hcalls c hc
    · rw [List.mem_singleton.mp hc]
      exact he

theorem answered_concat {name : Activity} {outcome : Outcome} (h : Answered calls name outcome) :
    Answered (calls ++ [e]) name outcome := by
  obtain ⟨c, hc, hanswer⟩ := h
  exact ⟨c, List.mem_append_left _ hc, hanswer⟩

theorem answered_last {name : Activity} {o : EvidenceActivityOutcome} (hname : e.call.activity = name)
    (hreply : e.reply = .ok o) : Answered (calls ++ [e]) name o.outcome :=
  ⟨e, List.mem_append_right _ List.mem_cons_self, hname, o, hreply, rfl⟩

/-- A query that no activity has concluded. -/
theorem unconcluded (honly : ∀ c ∈ calls, c.call.activity ∈ [Activity.authorize, .fetchPage]) :
    ¬Concluded calls := by
  have hno : ∀ c ∈ calls, c.call.activity ≠ .complete ∧ c.call.activity ≠ .cancel ∧
      c.call.activity ≠ .reconcile := by
    intro c hc
    have hmem := honly c hc
    generalize c.call.activity = a at hmem
    revert a
    decide
  rintro (⟨c, hc, hname, -⟩ | ⟨c, hc, hname, -⟩ | ⟨before, c, after, hcalls, hname, -⟩)
  · exact (hno c hc).1 hname
  · exact (hno c hc).2.1 hname
  · exact (hno c (by rw [hcalls]; simp)).2.2 hname

/-- One answer that concludes nothing, after calls that conclude nothing. -/
theorem unconcluded_concat
    (honly : ∀ c ∈ calls, c.call.activity ∈ [Activity.authorize, .fetchPage])
    (hname : e.call.activity ≠ .reconcile)
    (hcomplete : e.call.activity = .complete → ∀ o, e.reply = .ok o → o.outcome ≠ .queryComplete)
    (hcancel : e.call.activity = .cancel → ∀ o, e.reply = .ok o → o.outcome ≠ .cancelled) :
    ¬Concluded (calls ++ [e]) := by
  have hold := unconcluded honly
  rintro (⟨c, hc, hcall, o, ho, houtcome⟩ | ⟨c, hc, hcall, o, ho, houtcome⟩ |
    ⟨before, c, after, hsplit, hcall, -⟩)
  · rcases List.mem_append.mp hc with hc | hc
    · exact hold (.inl ⟨c, hc, hcall, o, ho, houtcome⟩)
    · obtain rfl := List.mem_singleton.mp hc
      exact hcomplete hcall o ho houtcome
  · rcases List.mem_append.mp hc with hc | hc
    · exact hold (.inr (.inl ⟨c, hc, hcall, o, ho, houtcome⟩))
    · obtain rfl := List.mem_singleton.mp hc
      exact hcancel hcall o ho houtcome
  · have hc : c ∈ calls ++ [e] := by rw [hsplit]; simp
    rcases List.mem_append.mp hc with hc | hc
    · have hmem := honly c hc
      rw [hcall] at hmem
      exact absurd hmem (by decide)
    · obtain rfl := List.mem_singleton.mp hc
      exact hname hcall

/-- An exception leaves an authorized query that nothing has concluded alone. -/
theorem abandoned {error : Failure} (hauthorized : Answered calls .authorize .authorized)
    (hopen : ¬Concluded calls) (hunfit : ¬Orderly value calls) : Settled value (.error error) calls :=
  iff_of_false (fun h => hopen (h.concluded hauthorized)) hunfit

/-- A call whose input is fine. -/
theorem sat_call {name : Activity} {operation : String} {pageNumber : Int} {commandRef : Option String}
    {attempts : Nat}
    {Q : EvidenceActivityOutcome → RunState ω → Prop} {R : Failure → RunState ω → Prop}
    (hinput : ∀ error, activityInput value operation pageNumber commandRef = .error error →
      R (.other error) s)
    (hok : ∀ input o fields w, activityInput value operation pageNumber commandRef = .ok input →
      (Signalled s.fields → Signalled fields) → Q o (replied s ⟨name, input, attempts⟩ (.ok o) fields w))
    (herror : ∀ input cause fields w, activityInput value operation pageNumber commandRef = .ok input →
      R (.activityError cause) (replied s ⟨name, input, attempts⟩ (.error cause) fields w)) :
    Exec.Sat (callActivity world value name operation pageNumber commandRef attempts) s Q R := by
  refine Exec.Sat.attempt (fun error herr => ?_) fun input hbuilt => ?_
  · cases hbuilt : activityInput value operation pageNumber commandRef with
    | ok input =>
      rw [hbuilt] at herr
      cases herr
    | error error' =>
      rw [hbuilt] at herr
      rw [← Except.error.inj herr]
      exact hinput error' hbuilt
  · have hbuilt' : activityInput value operation pageNumber commandRef = .ok input := by
      cases hin : activityInput value operation pageNumber commandRef with
      | ok input' =>
        rw [hin] at hbuilt
        rw [Except.ok.inj hbuilt]
      | error error' =>
        rw [hin] at hbuilt
        cases hbuilt
    refine sat_activity (fun signals o w _ => ?_) fun _ cause w _ => herror input cause _ w hbuilt'
    exact hok input o _ w hbuilt' fun hsignalled =>
      handleAll_keeps (fun f signal => signalled_handle f signal) hsignalled signals

theorem Going.stage {page : Nat} (h : Going value page s) (stage : Stage) :
    Going value page { s with fields := { s.fields with stage } } :=
  ⟨h.input, h.authorized, h.only, h.signalled, h.orderly⟩

/-- One more page, and what the run is waiting for after it. -/
theorem Going.fetched {page next : Nat} (h : Going value page s) (hpage : (page : Int) ≤ value.maximumPages)
    (href : Referable s.fields) {call : Call} {o : EvidenceActivityOutcome} {fields : WorkflowFields} {w : ω}
    (hname : call.activity = .fetchPage) (hsignalled : Signalled fields)
    (hfine : Referable fields ∧ (next : Int) ≤ value.maximumPages ↔
      Fine value.maximumPages ⟨call, .ok o, fields⟩) :
    Going value next (replied s call (.ok o) fields w) := by
  refine ⟨h.input, answered_concat h.authorized, fun c hc => ?_, hsignalled, ?_⟩
  · rcases List.mem_append.mp hc with hc | hc
    · exact h.only c hc
    · rw [List.mem_singleton.mp hc, hname]
      decide
  · rw [replied_invocations, orderly_concat]
    exact hfine.trans ⟨fun hf => ⟨h.orderly.mp ⟨href, hpage⟩, hf⟩, fun hf => hf.2⟩

/-- Nothing is cancelled, or the cancellation settles the run. -/
theorem cancelIfRequested_settles {page : Nat} (h : Going value page s)
    (hpage : (page : Int) ≤ value.maximumPages) (pageNumber : Int) :
    Exec.Sat (cancelIfRequested world value pageNumber) s
      (fun result s' => (result = none ∧ s' = s ∧ Referable s.fields) ∨
        ∃ r, result = some r ∧ Settled value (.ok r) s'.invocations)
      (fun e s' => Caught value e s'.invocations) := by
  unfold cancelIfRequested
  rw [Exec.sat_bind, Exec.sat_read]
  split
  · rename_i hno
    refine .inl ⟨rfl, rfl, fun ref href => ?_⟩
    have hset := h.signalled.mpr (by rw [href]; exact Option.some_ne_none ref)
    rw [hno] at hset
    cases hset
  · rename_i hyes
    have hrequested : s.fields.cancelRequested = true := by simpa using hyes
    refine Exec.Sat.check (fun hno => absurd (h.signalled.mp hrequested) hno) fun _ => ?_
    have hset : Exec.Sat (setStage .cancelling : Flow ω Unit) s
        (fun _ s' => s' = { s with fields := { s.fields with stage := .cancelling } })
        (fun _ _ => False) := rfl
    refine Exec.Sat.call hset (fun _ _ hno => hno.elim) fun _ s₁ hs₁ => ?_
    have h₁ : Going value page s₁ := by
      rw [hs₁]
      exact h.stage .cancelling
    have href₁ : Referable s₁.fields ↔ ∀ ref, s.fields.cancelRef = some ref → isIdentifier ref = true := by
      rw [hs₁]
      exact Iff.rfl
    have hcalled : Exec.Sat (callActivity world value .cancel "cancel" pageNumber s.fields.cancelRef 3) s₁
        (fun o s' => Referable s₁.fields ∧ ∃ c : Called, s'.invocations = s₁.invocations ++ [c] ∧
          c.call.activity = .cancel ∧ c.reply = .ok o)
        (fun e s' => Caught value e s'.invocations) := by
      refine sat_call (fun error herror => ?_) (fun input o fields w hinput _ => ?_)
        fun input cause fields w hinput => ?_
      · refine abandoned h₁.authorized (unconcluded h₁.only) fun horderly => ?_
        obtain ⟨input, hinput, -⟩ := @activityInput_ok value h₁.input "cancel" (by decide)
          (by decide) pageNumber _ (href₁.mp (h₁.orderly.mpr horderly).1)
        rw [hinput] at herror
        cases herror
      · exact ⟨href₁.mpr (activityInput_command hinput), _, rfl, rfl, rfl⟩
      · refine ⟨orderly_concat.mpr ⟨h₁.orderly.mp ⟨href₁.mpr (activityInput_command hinput), hpage⟩, ?_⟩,
          h₁.input⟩
        rintro o ho
        cases ho
    refine Exec.Sat.call hcalled (fun _ _ he => he) ?_
    rintro o s₂ ⟨href, c, hcalls, hname, hreply⟩
    refine Exec.Sat.check (fun hother => ?_) fun hcancelled => ?_
    · show Settled value _ s₂.invocations
      rw [hcalls]
      refine abandoned (answered_concat h₁.authorized) (unconcluded_concat h₁.only ?_ ?_ ?_) fun hno => ?_
      · rw [hname]
        decide
      · rw [hname]
        exact fun hcomplete => by cases hcomplete
      · intro _ o' ho'
        rw [hreply] at ho'
        rw [← Except.ok.inj ho']
        exact hother
      · have hfine := (orderly_concat.mp hno).2 o hreply
        rw [hname] at hfine
        exact hother hfine
    · show _ ∨ ∃ r, _ = some r ∧ Settled value (.ok r) s₂.invocations
      refine .inr ⟨_, rfl, ?_⟩
      have hanswered : Answered s₂.invocations .cancel .cancelled := by
        rw [hcalls, ← hcancelled]
        exact answered_last hname hreply
      refine iff_of_true ⟨fun _ => .inr (.inl hanswered), fun r hr hstatus => ?_, fun _ _ _ => hanswered⟩ ?_
      · rw [← Except.ok.inj hr] at hstatus
        cases hstatus
      · rw [hcalls]
        refine orderly_concat.mpr ⟨h₁.orderly.mp ⟨href, hpage⟩, fun o' ho' => ?_⟩
        rw [hreply] at ho'
        rw [hname, ← Except.ok.inj ho']
        exact hcancelled

/-- The loop ends with the last page, or the run is settled. -/
theorem fetchPages_settles (hmin : 1 ≤ value.maximumPages) (hmax : value.maximumPages ≤ 100)
    (remaining : Nat) : ∀ {page : Nat} {s : RunState ω}, Going value page s →
      (page : Int) + remaining = value.maximumPages + 1 →
      Exec.Sat (fetchPages world value page remaining) s
        (fun result s' => (result = none ∧ Going value 1 s') ∨
          ∃ r, result = some r ∧ Settled value (.ok r) s'.invocations)
        (fun e s' => Caught value e s'.invocations) := by
  induction remaining with
  | zero =>
    intro page s h hpage
    -- the page before was the last one, and it had a next one
    refine abandoned h.authorized (unconcluded h.only) fun horderly => ?_
    have hbound := (h.orderly.mpr horderly).2
    omega
  | succ remaining ih =>
    intro page s h hpage
    have hbound : (page : Int) ≤ value.maximumPages := by omega
    unfold fetchPages
    refine Exec.Sat.call (cancelIfRequested_settles h hbound page) (fun _ _ he => he) ?_
    rintro result s' (⟨rfl, rfl, href⟩ | ⟨r, rfl, hsettled⟩)
    · have hset : Exec.Sat (setStage .fetchingPage : Flow ω Unit) s'
          (fun _ s₁ => s₁ = { s' with fields := { s'.fields with stage := .fetchingPage } })
          (fun _ _ => False) := rfl
      refine Exec.Sat.call hset (fun _ _ hno => hno.elim) fun _ s₁ hs₁ => ?_
      have h₁ : Going value page s₁ := by
        rw [hs₁]
        exact h.stage .fetchingPage
      have href₁ : Referable s₁.fields := by
        rw [hs₁]
        exact href
      have hname := page_operation page (by omega)
      have hinput := activityInput_ok h₁.input hname.1 hname.2 page no_reference
      have horderly := h₁.orderly.mp ⟨href₁, hbound⟩
      rw [Exec.sat_bind]
      refine sat_call (fun error herror => ?_) (fun input o fields w hbuilt hsignalled => ?_)
        fun input cause fields w _ => ?_
      · obtain ⟨input, hinput, -⟩ := hinput
        rw [hinput] at herror
        cases herror
      · obtain ⟨input', hinput', hnumber⟩ := hinput
        obtain rfl : input = input' := Except.ok.inj (hbuilt.symm.trans hinput')
        have hstuck : ¬Fine value.maximumPages ⟨⟨.fetchPage, input, 3⟩, .ok o, fields⟩ →
            Caught value (.applicationError (code "IntegrityFailure"))
              (s₁.invocations ++ [⟨⟨.fetchPage, input, 3⟩, .ok o, fields⟩]) := by
          intro hunfit
          refine abandoned (answered_concat h₁.authorized) (unconcluded_concat h₁.only ?_ ?_ ?_) fun hno => ?_
          · exact fun hcall => by cases hcall
          · exact fun hcall => by cases hcall
          · exact fun hcall => by cases hcall
          · exact hunfit (orderly_concat.mp hno).2
        refine Exec.Sat.check (fun hother => hstuck fun hfine => hother (hfine o rfl).1) fun hpageDone => ?_
        split
        · rename_i hlast
          refine .inl ⟨rfl, h₁.fetched hbound href₁ rfl (hsignalled h₁.signalled) ⟨fun hr o' ho' => ?_,
            fun hfine => ⟨(hfine o rfl).2.1, by omega⟩⟩⟩
          obtain rfl : o = o' := Except.ok.inj ho'
          refine ⟨hpageDone, hr.1, fun hnext => ?_⟩
          rw [hlast] at hnext
          cases hnext
        · rename_i hnext
          have hnext' : o.hasNextPage = true := by simpa using hnext
          refine Exec.Sat.check (fun hno => hstuck fun hfine => hno ((hfine o rfl).2.2 hnext').1)
            fun hcursor => ?_
          refine ih (h₁.fetched hbound href₁ rfl (hsignalled h₁.signalled) ⟨fun hr o' ho' => ?_,
            fun hfine => ⟨(hfine o rfl).2.1, ?_⟩⟩) (by push_cast; omega)
          · obtain rfl : o = o' := Except.ok.inj ho'
            refine ⟨hpageDone, hr.1, fun _ => ⟨hcursor, ?_⟩⟩
            show input.pageNumber < _
            have hle := hr.2
            push_cast at hle
            omega
          · have hlt : input.pageNumber < value.maximumPages := ((hfine o rfl).2.2 hnext').2
            push_cast
            omega
      · refine ⟨orderly_concat.mpr ⟨horderly, fun o ho => ?_⟩, h₁.input⟩
        cases ho
    · exact .inr ⟨r, rfl, hsettled⟩

theorem completeQuery_settles (hmin : 1 ≤ value.maximumPages) (h : Going value 1 s) :
    Exec.Sat (completeQuery world value) s (fun r s' => Settled value (.ok r) s'.invocations)
      (fun e s' => Caught value e s'.invocations) := by
  have hbound : ((1 : Nat) : Int) ≤ value.maximumPages := by exact_mod_cast hmin
  unfold completeQuery
  refine Exec.Sat.call (cancelIfRequested_settles h hbound _) (fun _ _ he => he) ?_
  rintro result s' (⟨rfl, rfl, href⟩ | ⟨r, rfl, hsettled⟩)
  · have hset : Exec.Sat (setStage .completing : Flow ω Unit) s'
        (fun _ s₁ => s₁ = { s' with fields := { s'.fields with stage := .completing } })
        (fun _ _ => False) := rfl
    refine Exec.Sat.call hset (fun _ _ hno => hno.elim) fun _ s₁ hs₁ => ?_
    have h₁ : Going value 1 s₁ := by
      rw [hs₁]
      exact h.stage .completing
    have href₁ : Referable s₁.fields := by
      rw [hs₁]
      exact href
    have horderly := h₁.orderly.mp ⟨href₁, hbound⟩
    rw [Exec.sat_bind]
    refine sat_call (fun error herror => ?_) (fun input o fields w _ _ => ?_) fun input cause fields w _ => ?_
    · obtain ⟨input, hinput, -⟩ := @activityInput_ok value h₁.input "complete" (by decide)
        (by decide) 0 _ no_reference
      rw [hinput] at herror
      cases herror
    · by_cases hdone : o.outcome = .queryComplete
      · -- completed, with a bundle or without one
        have hanswered : Answered (s₁.invocations ++ [⟨⟨.complete, input, 3⟩, .ok o, fields⟩]) .complete
            .queryComplete := hdone ▸ answered_last rfl rfl
        have hfine : Orderly value (s₁.invocations ++ [⟨⟨.complete, input, 3⟩, .ok o, fields⟩]) := by
          refine orderly_concat.mpr ⟨horderly, fun o' ho' => ?_⟩
          obtain rfl : o = o' := Except.ok.inj ho'
          exact hdone
        refine Exec.Sat.check (fun _ => ?_) fun _ => ?_
        · exact iff_of_true ⟨fun _ => .inl hanswered, fun _ hr => (by cases hr), fun _ hr => (by cases hr)⟩ hfine
        · refine iff_of_true ⟨fun _ => .inl hanswered, fun _ _ _ => hanswered, fun r hr hstatus => ?_⟩ hfine
          rw [← Except.ok.inj hr] at hstatus
          cases hstatus
      · refine Exec.Sat.check (fun _ => ?_) fun hyes => absurd hyes.1 hdone
        refine abandoned (answered_concat h₁.authorized) (unconcluded_concat h₁.only ?_ ?_ ?_) fun hno => ?_
        · exact fun hcall => by cases hcall
        · intro _ o' ho'
          rw [← Except.ok.inj ho']
          exact hdone
        · exact fun hcall => by cases hcall
        · exact hdone ((orderly_concat.mp hno).2 o rfl)
    · refine ⟨orderly_concat.mpr ⟨horderly, fun o ho => ?_⟩, h₁.input⟩
      cases ho
  · exact hsettled

theorem lifecycle_settles (hmin : 1 ≤ value.maximumPages) (hmax : value.maximumPages ≤ 100)
    (hcalls : s.invocations = []) (hfields : s.fields = .init) :
    Exec.Sat (lifecycle world value) s (fun r s' => Settled value (.ok r) s'.invocations)
      (fun e s' => Caught value e s'.invocations) := by
  have hset : Exec.Sat (setStage .authorizing : Flow ω Unit) s
      (fun _ s₁ => s₁.invocations = [] ∧ Signalled s₁.fields) (fun _ _ => False) := by
    refine ⟨hcalls, ?_⟩
    show Signalled { s.fields with stage := .authorizing }
    rw [hfields]
    exact ⟨nofun, fun hno => absurd rfl hno⟩
  unfold lifecycle
  refine Exec.Sat.call hset (fun _ _ hno => hno.elim) ?_
  rintro _ s₁ ⟨hnone, hsignalled⟩
  rw [Exec.sat_bind]
  refine sat_call (fun error _ => ?_) (fun input o fields w hinput hkept => ?_)
    fun input cause fields w hinput => ?_
  · show Settled value _ s₁.invocations
    rw [hnone]
    refine iff_of_true ⟨?_, fun _ hr => (by cases hr), fun _ hr => (by cases hr)⟩
      fun _ hc => absurd hc List.not_mem_nil
    rintro ⟨c, hc, -⟩
    cases hc
  · split
    · rename_i hdenied
      show Settled value _ (s₁.invocations ++ _)
      rw [hnone]
      refine iff_of_true ⟨?_, fun r hr hstatus => ?_, fun r hr hstatus => ?_⟩ ?_
      · rintro ⟨c, hc, -, o', ho', houtcome⟩
        rw [List.mem_singleton.mp hc] at ho'
        rw [← Except.ok.inj ho'] at houtcome
        exact absurd houtcome hdenied
      · rw [← Except.ok.inj hr] at hstatus
        cases hstatus
      · rw [← Except.ok.inj hr] at hstatus
        cases hstatus
      · intro c hc o' ho'
        rw [List.mem_singleton.mp hc] at ho' ⊢
        obtain rfl : o = o' := Except.ok.inj ho'
        exact fun hyes => absurd hyes hdenied
    · rename_i hauthorized
      have hauthorized' : o.outcome = .authorized := not_not.mp hauthorized
      have hgoing : Going value 1 (replied s₁ ⟨.authorize, input, 3⟩ (.ok o) fields w) := by
        refine ⟨⟨input, hinput⟩, hauthorized' ▸ answered_last rfl rfl, fun c hc => ?_, hkept hsignalled, ?_⟩
        · rw [replied_invocations, hnone] at hc
          rw [List.mem_singleton.mp hc]
          exact List.mem_cons_self
        · rw [replied_invocations, hnone]
          constructor
          · rintro ⟨href, -⟩ c hc o' ho'
            rw [List.mem_singleton.mp hc] at ho' ⊢
            exact fun _ => href
          · intro horderly
            exact ⟨horderly _ List.mem_cons_self o rfl hauthorized', by exact_mod_cast hmin⟩
      refine Exec.Sat.call (fetchPages_settles hmin hmax _ hgoing ?_) (fun _ _ he => he) ?_
      · rw [Int.toNat_of_nonneg (by omega)]
        push_cast
        omega
      · rintro result s₂ (⟨rfl, hgoing₂⟩ | ⟨r, rfl, hsettled⟩)
        · exact completeQuery_settles hmin hgoing₂
        · exact hsettled
  · refine ⟨?_, input, hinput⟩
    rw [replied_invocations, hnone]
    intro c hc o ho
    rw [List.mem_singleton.mp hc] at ho
    cases ho

/-- An activity that failed is handed to `reconcile`. -/
theorem reconcileQuery_settles (horderly : Orderly value s.invocations)
    (hinput : ∃ input, activityInput value "authorize" 0 none = .ok input) :
    Exec.Sat (reconcileQuery world value) s (fun r s' => Settled value (.ok r) s'.invocations)
      (fun e s' => Settled value (.error e) s'.invocations) := by
  -- whatever `reconcile` comes back with
  have hconcluded : ∀ (c : Called) (r : EvidenceWorkflowResult), c.call.activity = .reconcile →
      r.status = .reconciliationRequired → Settled value (.ok r) (s.invocations ++ [c]) := by
    intro c r hname hstatus
    refine iff_of_true ⟨fun _ => .inr (.inr ⟨_, c, [], rfl, hname, fun _ hc => absurd hc List.not_mem_nil⟩), fun r' hr' hcompleted => ?_,
      fun r' hr' hcancelled => ?_⟩ (orderly_concat.mpr ⟨horderly, fun o _ => ?_⟩)
    · rw [← Except.ok.inj hr', hstatus] at hcompleted
      cases hcompleted
    · rw [← Except.ok.inj hr', hstatus] at hcancelled
      cases hcancelled
    · rw [hname]
      trivial
  have hset : Exec.Sat (setStage .reconciling : Flow ω Unit) s
      (fun _ s₁ => s₁.invocations = s.invocations) (fun _ _ => False) := rfl
  unfold reconcileQuery
  refine Exec.Sat.call hset (fun _ _ hno => hno.elim) fun _ s₁ hs₁ => ?_
  have hcalled : Exec.Sat (suppressed do
      let _ ← callActivity world value .reconcile "reconcile" 0 none 1
      pure ()) s₁ (fun _ s' => ∃ c : Called, s'.invocations = s.invocations ++ [c] ∧
        c.call.activity = .reconcile) (fun _ _ => False) := by
    unfold suppressed
    rw [Exec.sat_catching, Exec.sat_bind]
    refine sat_call (fun error herror => ?_) (fun input o fields w _ _ => ?_)
      fun input cause fields w _ => ?_
    · obtain ⟨input, hbuilt, -⟩ := @activityInput_ok value hinput "reconcile" (by decide)
        (by decide) 0 _ no_reference
      rw [hbuilt] at herror
      cases herror
    · exact ⟨_, congrArg (· ++ _) hs₁, rfl⟩
    · exact ⟨_, congrArg (· ++ _) hs₁, rfl⟩
  refine Exec.Sat.call hcalled (fun _ _ hno => hno.elim) ?_
  rintro _ s₂ ⟨c, hc, hname⟩
  show Settled value (.ok _) s₂.invocations
  rw [hc]
  exact hconcluded c _ hname rfl

end Runs

/-- **An authorized query is abandoned exactly when an activity answers with something that was not asked
    for**: over every world, so whatever the outcomes, the errors and the moment of a cancellation. -/
theorem abandons_never_iff (world : RunWorld ω) (value : EvidenceWorkflowInput) (w : ω) :
    let out := run world value (.start .init w)
    NeverAbandons out.1 out.2.invocations ↔ Orderly value out.2.invocations := by
  have hrun : Exec.Sat (run world value) (.start .init w)
      (fun r s' => Settled value (.ok r) s'.invocations)
      (fun e s' => Settled value (.error e) s'.invocations) := by
    unfold run
    refine Exec.Sat.check (fun _ => ?_) fun hbounds => ?_
    · refine iff_of_true ⟨?_, fun _ hr => (by cases hr), fun _ hr => (by cases hr)⟩
        fun _ hc => absurd hc List.not_mem_nil
      rintro ⟨c, hc, -⟩
      cases hc
    · rw [Exec.sat_catching]
      refine (lifecycle_settles hbounds.1 hbounds.2 rfl rfl).mono (fun _ _ h => h) fun e s' h => ?_
      cases e with
      | activityError cause => exact reconcileQuery_settles h.1 h.2
      | applicationError type => exact h
      | other error => exact h
  exact hrun.outcome (P := fun result (s' : RunState ω) => Settled value result s'.invocations)

/-! ## A page that is not what was asked for -/

def sampleInput : EvidenceWorkflowInput where
  tenantRef := ⟨"t", computed⟩
  actorRef := code "actor"
  requestRef := code "request"
  runId := code "run"
  queryRef := code "query"
  workflowId := code "workflow"
  maximumPages := 1

def sampleTurn (outcome : Outcome) : Turn Signal (Reply EvidenceActivityOutcome) :=
  ⟨[], .ok ⟨outcome, false, none, none⟩⟩

/-- The page is denied. -/
def sampleRun :
    Except Failure EvidenceWorkflowResult × RunState (List (Turn Signal (Reply EvidenceActivityOutcome))) :=
  run (World.scripted (sampleTurn .denied)) sampleInput
    (.start .init [sampleTurn .authorized, sampleTurn .denied])

/-- The run raises, and nobody is told about the query. -/
theorem denied_page_abandons : ¬NeverAbandons sampleRun.1 sampleRun.2.invocations := by
  intro h
  have hauthorized : Answered sampleRun.2.invocations .authorize .authorized :=
    ⟨_, List.head_mem (l := sampleRun.2.invocations) (by decide +kernel), by decide +kernel, _, rfl,
      by decide +kernel⟩
  have hactivities : sampleRun.2.invocations.map (·.call.activity) = [.authorize, .fetchPage] := by
    decide +kernel
  refine unconcluded (fun e he => ?_) (h.concluded hauthorized)
  have hmem := List.mem_map_of_mem (f := fun e : Called => e.call.activity) he
  rw [hactivities] at hmem
  exact hmem


end EvidenceTemporal

end Aegis
