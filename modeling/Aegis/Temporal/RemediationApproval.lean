/-
  QUORUM APPROVALS THROUGH THE WORKFLOW.

  The approval service takes several decisions before a plan is approved; each is signalled to the
  workflow.  A `Script` cuts what happens into the stretches between the workflow's awaits: until the
  request returns, until the wait is over, until the approval is read, until the reading is handed over,
  and later.  The approval itself is an automaton, pending until the n-th grant.

  The workflow takes ONE signal off its queue and treats a pending approval as an invalid outcome.  So
  preflight is reached exactly when the n-th grant comes first if the approval is no longer pending
  when it is read for the first signal, and nothing overrides the n-th grant until that reading is
  handed over (`quorum_reached_iff`).
-/
import Mathlib
import Aegis.Temporal.RemediationEffects

namespace Aegis

namespace RemediationTemporal

open Workflow Temporal
open Remediation (ApprovalDisposition RemediationStatus literalIdentifier)

/-! ## The approval -/

/-- What can happen to an approval and its workflow.  A decision is recorded and signalled; a signal may
    be delivered again. -/
inductive Happening where
  | decided (commandRef : Identifier) (disposition : ApprovalDisposition)
  | repeated (commandRef : Identifier)
  | revoked
  | expired
  | cancelRequested (commandRef : Identifier)
deriving DecidableEq

/-- The signal the workflow gets. -/
def Happening.signal : Happening → Option Signal
  | .decided commandRef _ => some (.approvalDecision commandRef)
  | .repeated commandRef => some (.approvalDecision commandRef)
  | .revoked => none
  | .expired => none
  | .cancelRequested commandRef => some (.requestCancel commandRef)

/-- The state of an approval; a pending one counts its grants. -/
inductive ApprovalState where
  | pending (grants : Nat)
  | granted
  | denied
  | expired
  | revoked
deriving DecidableEq, Repr

/-- What a quorum of `n` makes of a happening.  A decided approval takes no more decisions; an
    approved one can still be revoked. -/
def ApprovalState.next (n : Nat) : ApprovalState → Happening → ApprovalState
  | .pending k, .decided _ .grant => if n ≤ k + 1 then .granted else .pending (k + 1)
  | .pending _, .decided _ .deny => .denied
  | .pending _, .revoked => .revoked
  | .pending _, .expired => .expired
  | .granted, .revoked => .revoked
  | state, _ => state

/-- The outcome `load_approval_decision` reports. -/
def ApprovalState.outcome : ApprovalState → Outcome
  | .pending _ => .pending
  | .granted => .granted
  | .denied => .denied
  | .expired => .expired
  | .revoked => .revoked

/-- The approval after what has happened. -/
def approvalAfter (n : Nat) (log : List Happening) : ApprovalState :=
  log.foldl (fun state => state.next n) (.pending 0)

/-! ## What the workflow sees -/

/-- The signals of what has happened. -/
def signalsOf (log : List Happening) : List Signal := log.filterMap Happening.signal

/-- The fields of a workflow that has handled them and taken nothing off its queues. -/
def fieldsAfter (log : List Happening) : WorkflowFields := handleAll handle .init (signalsOf log)

/-- The workflow has taken up a cancel command. -/
def CancelAccepted (log : List Happening) : Prop := (fieldsAfter log).cancelCommand ≠ none

theorem approvalAfter_concat (n : Nat) (log : List Happening) (happening : Happening) :
    approvalAfter n (log ++ [happening]) = (approvalAfter n log).next n happening := by
  unfold approvalAfter
  rw [List.foldl_append]
  rfl

theorem signalsOf_append (log more : List Happening) :
    signalsOf (log ++ more) = signalsOf log ++ signalsOf more := List.filterMap_append

theorem fieldsAfter_append (log more : List Happening) :
    fieldsAfter (log ++ more) = handleAll handle (fieldsAfter log) (signalsOf more) := by
  rw [fieldsAfter, signalsOf_append, handleAll_append]
  rfl

/-- A cancel command is kept. -/
theorem handle_cancelCommand {f : WorkflowFields} (signal : Signal) (h : f.cancelCommand ≠ none) :
    (handle f signal).cancelCommand ≠ none := by
  cases signal with
  | approvalDecision commandRef => simp only [handle]; split <;> exact h
  | reconcileEffect commandRef => simp only [handle]; split <;> exact h
  | requestCancel commandRef =>
    simp only [handle]
    split
    · exact h
    · exact Option.some_ne_none commandRef

theorem CancelAccepted.append {log : List Happening} (h : CancelAccepted log)
    (more : List Happening) : CancelAccepted (log ++ more) := by
  unfold CancelAccepted
  rw [fieldsAfter_append]
  exact handleAll_keeps (I := fun f : WorkflowFields => f.cancelCommand ≠ none)
    (fun _ signal hf => handle_cancelCommand signal hf) h _

theorem handle_awake {f : WorkflowFields} (signal : Signal) (h : awake f = true) :
    awake (handle f signal) = true := by
  simp only [awake, Bool.or_eq_true, Bool.not_eq_true', List.isEmpty_eq_false_iff] at h ⊢
  cases signal with
  | approvalDecision commandRef =>
    simp only [handle]
    split
    · exact h
    · exact .inl (List.append_ne_nil_of_right_ne_nil _ (List.cons_ne_nil _ _))
  | reconcileEffect commandRef => simp only [handle]; split <;> exact h
  | requestCancel commandRef =>
    simp only [handle]
    split
    · exact h
    · exact .inr rfl

/-- Any signal wakes the workflow: the first one is always taken. -/
theorem awake_iff (log : List Happening) : awake (fieldsAfter log) = true ↔ signalsOf log ≠ [] := by
  constructor
  · intro hawake hnil
    rw [fieldsAfter, hnil] at hawake
    exact absurd hawake (by decide)
  · intro hne
    induction log with
    | nil => exact absurd rfl hne
    | cons happening log ih =>
      have hfirst : ∀ signal, happening.signal = some signal →
          awake (handle .init signal) = true := by
        intro signal hsignal
        cases happening with
        | decided commandRef disposition => cases hsignal; rfl
        | repeated commandRef => cases hsignal; rfl
        | cancelRequested commandRef => cases hsignal; rfl
        | revoked => cases hsignal
        | expired => cases hsignal
      cases hsignal : happening.signal with
      | none =>
        have htail : signalsOf (happening :: log) = signalsOf log :=
          List.filterMap_cons_none hsignal
        rw [fieldsAfter, htail]
        rw [htail] at hne
        exact ih hne
      | some signal =>
        have hcons : signalsOf (happening :: log) = signal :: signalsOf log :=
          List.filterMap_cons_some hsignal
        rw [fieldsAfter, hcons]
        exact handleAll_keeps (I := fun f : WorkflowFields => awake f = true)
          (fun _ signal hf => handle_awake signal hf) (hfirst signal hsignal) (signalsOf log)

/-- Taking a command off the queue does not change what becomes of the cancel command. -/
theorem cancelCommand_of_popped {f f' : WorkflowFields} (hseen : f.seenCommands = f'.seenCommands)
    (hcancel : f.cancelCommand = f'.cancelCommand) (signals : List Signal) :
    (handleAll handle f signals).cancelCommand = (handleAll handle f' signals).cancelCommand := by
  induction signals generalizing f f' with
  | nil => exact hcancel
  | cons signal signals ih =>
    show (handleAll handle (handle f signal) signals).cancelCommand =
      (handleAll handle (handle f' signal) signals).cancelCommand
    cases signal with
    | approvalDecision commandRef =>
      simp only [handle, hseen]
      split
      · exact ih hseen hcancel
      · exact ih rfl hcancel
    | reconcileEffect commandRef =>
      simp only [handle, hseen]
      split
      · exact ih hseen hcancel
      · exact ih rfl hcancel
    | requestCancel commandRef =>
      simp only [handle, hseen, hcancel]
      split
      · exact ih hseen hcancel
      · exact ih rfl rfl

/-! ## Scripts -/

/-- What happens between the awaits of an approval. -/
structure Script where
  requested : List Happening
  awaited : List Happening
  loading : List Happening
  replying : List Happening
  later : List Happening

/-- Until the wait is over. -/
def Script.waited (script : Script) : List Happening := script.requested ++ script.awaited

/-- Until the approval is read. -/
def Script.read (script : Script) : List Happening := script.waited ++ script.loading

/-- Until the reading is handed over. -/
def Script.looked (script : Script) : List Happening := script.read ++ script.replying

/-- The timer fires before any signal. -/
def Script.TimesOut (script : Script) : Prop := signalsOf script.waited = []

instance (script : Script) : Decidable script.TimesOut :=
  inferInstanceAs (Decidable (signalsOf script.waited = []))

/-- Everything until the approval timer. -/
def Script.timeline (script : Script) : List Happening :=
  if script.TimesOut then script.waited else script.looked ++ script.later

/-- The n-th grant comes before the timeout and before any denial, expiry, revocation or accepted
    cancellation. -/
def QuorumFirst (n : Nat) (timeline : List Happening) : Prop :=
  ∃ before grant after, timeline = before ++ grant :: after ∧
    (∃ k, approvalAfter n before = .pending k) ∧
    approvalAfter n (before ++ [grant]) = .granted ∧ ¬CancelAccepted before

/-- The state of the world of a script: what has happened, whether the approval wait is over, and the
    rest of the world. -/
structure ScriptState (ω : Type) where
  log : List Happening
  waitedFor : Bool
  rest : ω

/-- The world of a script: the request is recorded, the approval is read as it is, and everything
    after it is up to `rest`. -/
def scriptWorld {ω : Type} (n : Nat) (script : Script) (rest : RunWorld ω) :
    RunWorld (ScriptState ω) where
  activity := fun call w =>
    match call.activity with
    | .requestApproval =>
      ((signalsOf script.requested, .ok ⟨.recorded, none⟩),
        { w with log := w.log ++ script.requested })
    | .loadApprovalDecision =>
      ((signalsOf (script.loading ++ script.replying),
          .ok ⟨(approvalAfter n (w.log ++ script.loading)).outcome, none⟩),
        { w with log := w.log ++ (script.loading ++ script.replying) })
    | _ =>
      let answered := rest.activity call w.rest
      (answered.1, { w with rest := answered.2 })
  timer := fun seconds w =>
    if w.waitedFor = false then
      (signalsOf script.awaited, { w with log := w.log ++ script.awaited, waitedFor := true })
    else
      let arrived := rest.timer seconds w.rest
      (arrived.1, { w with rest := arrived.2 })

/-- The preflight stage is reached. -/
def ReachesPreflight (calls : List Called) : Prop := ∃ e ∈ calls, e.call.activity = .preflight

/-- The run ends on an approval that was still pending. -/
def EndsPending (calls : List Called) : Prop :=
  ∃ e, calls.getLast? = some e ∧ e.call.activity = .loadApprovalDecision ∧
    reports e.reply [.pending]

/-! ## The approval stage, step by step -/

section Run

variable {ω : Type} {n : Nat} {script : Script} {rest : RunWorld ω}
  {value : RemediationWorkflowInput}

/-- No call so far is a preflight, nor an approval read as pending. -/
def Undecided (s : RunState (ScriptState ω)) : Prop :=
  ∀ e ∈ s.invocations, e.call.activity ≠ .preflight ∧ e.call.activity ≠ .loadApprovalDecision

/-- The run neither reaches preflight nor ends pending. -/
def Neither (s : RunState (ScriptState ω)) : Prop :=
  ∀ e ∈ s.invocations, e.call.activity ≠ .preflight ∧
    (e.call.activity = .loadApprovalDecision → ¬reports e.reply [.pending])

theorem Undecided.neither {s : RunState (ScriptState ω)} (h : Undecided s) : Neither s :=
  fun e he => ⟨(h e he).1, fun hload => absurd hload (h e he).2⟩

theorem Neither.not_reaches {s : RunState (ScriptState ω)} (h : Neither s) :
    ¬ReachesPreflight s.invocations := by
  rintro ⟨e, he, hname⟩
  exact (h e he).1 hname

/-- A run whose readings were all decided does not end pending. -/
theorem not_endsPending {calls : List Called}
    (h : ∀ e ∈ calls, e.call.activity = .loadApprovalDecision → ¬reports e.reply [.pending]) :
    ¬EndsPending calls := by
  rintro ⟨e, hlast, hload, hpending⟩
  exact h e (List.mem_of_getLast? hlast) hload hpending

theorem kept_neither {names : List Activity}
    (h : ∀ name ∈ names, name ≠ .preflight ∧ name ≠ .loadApprovalDecision) :
    KeptBy (Neither (ω := ω)) names := by
  refine kept_calls fun call hcall reply fields => ⟨(h _ hcall).1, fun hload => ?_⟩
  exact absurd hload (h _ hcall).2

/-- The run has called preflight, and no reading of the approval was pending. -/
def Reached (s : RunState (ScriptState ω)) : Prop :=
  ReachesPreflight s.invocations ∧
    ∀ e ∈ s.invocations, e.call.activity = .loadApprovalDecision → ¬reports e.reply [.pending]

theorem kept_reached {names : List Activity} (h : ∀ name ∈ names, name ≠ .loadApprovalDecision) :
    KeptBy (Reached (ω := ω)) names where
  called := by
    rintro call hcall s reply fields w ⟨⟨e, he, hpreflight⟩, hloads⟩
    refine ⟨⟨e, List.mem_append_left _ he, hpreflight⟩, fun e' he' hload => ?_⟩
    rw [replied_invocations, List.mem_append, List.mem_singleton] at he'
    rcases he' with he' | rfl
    · exact hloads e' he' hload
    · exact absurd hload (h _ hcall)
  waited := fun _ _ _ hs => hs

/-- What a run of the script comes to: preflight if the approval is read as granted with no cancel
    command in, an end on a pending approval if it is read as pending. -/
def Concluded (n : Nat) (script : Script) (s : RunState (ScriptState ω)) : Prop :=
  (ReachesPreflight s.invocations ↔ ¬script.TimesOut ∧ ¬CancelAccepted script.looked ∧
      approvalAfter n script.read = .granted) ∧
    (EndsPending s.invocations ↔ ¬script.TimesOut ∧ ¬CancelAccepted script.waited ∧
      ∃ k, approvalAfter n script.read = .pending k)

/-- `x`, with its exceptions handed to the error handler, comes to that. -/
def Concludes (n : Nat) (script : Script) (rest : RunWorld ω) (value : RemediationWorkflowInput)
    (x : Flow (ScriptState ω) RemediationWorkflowResult) (s : RunState (ScriptState ω)) : Prop :=
  Exec.Sat x s (fun _ => Concluded n script) (fun e s' =>
    Exec.Sat (recover (scriptWorld n script rest) value e) s' (fun _ => Concluded n script)
      (fun _ => Concluded n script))

variable {s : RunState (ScriptState ω)}

/-- A stage that keeps an invariant which settles the matter. -/
theorem concludes_of_keeps {I : RunState (ScriptState ω) → Prop}
    {x : Flow (ScriptState ω) RemediationWorkflowResult} (hcancel : KeptBy I [.cancel])
    (hI : ∀ s, I s → Concluded n script s) (h : Exec.Sat x s (fun _ => I) (fun _ => I)) :
    Concludes n script rest value x s :=
  h.mono (fun _ s' hs' => hI s' hs') (fun e _ hs' =>
    (recover_keeps hcancel hs' e).mono (fun _ s'' hs'' => hI s'' hs'') (fun _ s'' hs'' => hI s'' hs''))

theorem concludes_of_neither {x : Flow (ScriptState ω) RemediationWorkflowResult}
    (hgranted : ¬(¬script.TimesOut ∧ ¬CancelAccepted script.looked ∧
      approvalAfter n script.read = .granted))
    (hpending : ¬(¬script.TimesOut ∧ ¬CancelAccepted script.waited ∧
      ∃ k, approvalAfter n script.read = .pending k))
    (h : Exec.Sat x s (fun _ => Neither) (fun _ => Neither)) :
    Concludes n script rest value x s := by
  refine concludes_of_keeps (kept_neither (by decide)) (fun s' hs' => ⟨?_, ?_⟩) h
  · exact ⟨fun hreach => absurd hreach hs'.not_reaches, fun hg => absurd hg hgranted⟩
  · refine ⟨fun hends => ?_, fun hp => absurd hp hpending⟩
    exact absurd hends (not_endsPending fun e he => (hs' e he).2)

/-- The preflight stage, once the approval was read as granted. -/
theorem preflight_concludes {input : RemediationActivityInput}
    (hvalid : activityInput value "request-approval" none = .ok input) (hs : Neither s)
    (htime : ¬script.TimesOut) (hcancel : ¬CancelAccepted script.looked)
    (hgranted : approvalAfter n script.read = .granted) :
    Concludes n script rest value (preflightEffect (scriptWorld n script rest) value) s := by
  obtain ⟨preflightInput, hpreflightInput⟩ :
      ∃ input, activityInput value "preflight" none = .ok input :=
    activityInput_shorter hvalid (by decide) (by decide)
  have hreached : ∀ input reply fields (w : ScriptState ω),
      Reached (replied s ⟨.preflight, input⟩ reply fields w) := by
    intro input reply fields w
    refine ⟨⟨_, List.mem_append_right _ List.mem_cons_self, rfl⟩, fun e he hload => ?_⟩
    rw [replied_invocations, List.mem_append, List.mem_singleton] at he
    rcases he with he | rfl
    · exact (hs e he).2 hload
    · cases hload
  refine concludes_of_keeps (I := Reached) (kept_reached (by decide))
    (fun s' hs' => ⟨⟨fun _ => ⟨htime, hcancel, hgranted⟩, fun _ => hs'.1⟩, ?_⟩) ?_
  · refine ⟨fun hends => absurd hends (not_endsPending hs'.2), ?_⟩
    rintro ⟨-, -, k, hpending⟩
    rw [hgranted] at hpending
    cases hpending
  · unfold preflightEffect
    rw [Exec.sat_bind]
    refine sat_requireOutcome (fun e he => ?_) (fun input signals o w _ _ => ?_)
      (fun input signals o w _ _ => hreached _ _ _ _)
      (fun input signals cause w _ => hreached _ _ _ _)
    · rw [hpreflightInput] at he; cases he
    · exact unlessCancelled_keeps (kept_reached (by decide))
        (fun s hs => executeEffect_keeps (kept_reached (by decide))
          (fun effect s hs => verifyEffect_keeps (kept_reached (by decide)) hs effect) hs)
        (hreached _ _ _ _)

/-- What the workflow makes of the approval it has read. -/
theorem follow_concludes {input : RemediationActivityInput} {e : Called}
    {decision : RemediationActivityOutcome} {calls : List Called}
    (hvalid : activityInput value "request-approval" none = .ok input)
    (hcalls : s.invocations = calls ++ [e])
    (hundecided : ∀ e ∈ calls, e.call.activity ≠ .preflight ∧
      e.call.activity ≠ .loadApprovalDecision)
    (hload : e.call.activity = .loadApprovalDecision) (hreply : e.reply = .ok decision)
    (hdecision : decision.outcome = (approvalAfter n script.read).outcome)
    (hlooked : s.fields.cancelCommand = (fieldsAfter script.looked).cancelCommand)
    (htime : ¬script.TimesOut) (hwaited : ¬CancelAccepted script.waited) :
    Concludes n script rest value
      (followDecision (scriptWorld n script rest) value decision) s := by
  have hpreflight : e.call.activity ≠ .preflight := by
    rw [hload]; decide
  -- a reading that is not pending leaves the run undecided
  have hneither : decision.outcome ≠ .pending → Neither s := by
    intro hnot e' he'
    rw [hcalls, List.mem_append, List.mem_singleton] at he'
    rcases he' with he' | rfl
    · exact ⟨(hundecided e' he').1, fun hname => absurd hname (hundecided e' he').2⟩
    · refine ⟨hpreflight, fun _ hpending => ?_⟩
      rw [hreply, reports_singleton] at hpending
      exact hnot hpending
  unfold followDecision
  cases hread : approvalAfter n script.read with
  | pending k =>
    have houtcome : decision.outcome = .pending := by rw [hdecision, hread]; rfl
    rw [houtcome]
    -- a pending approval is an invalid outcome: the run fails here
    refine ⟨⟨?_, ?_⟩, ⟨fun _ => ⟨htime, hwaited, k, hread⟩, fun _ => ⟨e, ?_, hload, ?_⟩⟩⟩
    · rintro ⟨e', he', hname⟩
      rw [hcalls, List.mem_append, List.mem_singleton] at he'
      rcases he' with he' | rfl
      · exact absurd hname (hundecided e' he').1
      · exact absurd hname hpreflight
    · rintro ⟨-, -, hgranted⟩
      rw [hread] at hgranted; cases hgranted
    · show s.invocations.getLast? = some e
      rw [hcalls, List.getLast?_concat]
    · rw [hreply, reports_singleton]; exact houtcome
  | granted =>
    have houtcome : decision.outcome = .granted := by rw [hdecision, hread]; rfl
    have hs := hneither (by rw [houtcome]; decide)
    rw [houtcome]
    show Concludes n script rest value (unlessCancelled (scriptWorld n script rest) value
      (preflightEffect (scriptWorld n script rest) value)) s
    by_cases hcancel : CancelAccepted script.looked
    · refine concludes_of_neither (fun h => h.2.1 hcancel) ?_ ?_
      · rintro ⟨-, -, k, hpending⟩
        rw [hread] at hpending; cases hpending
      · have hin : s.fields.cancelCommand ≠ none := by rw [hlooked]; exact hcancel
        exact unlessCancelled_cancels (kept_neither (by decide)) hin hs
    · have hnone : s.fields.cancelCommand = none := by
        rw [hlooked]; exact not_not.mp hcancel
      unfold Concludes unlessCancelled
      rw [Exec.sat_bind]
      refine sat_cancelIfRequested (fun _ => ?_) (fun hin => absurd hnone hin)
        (fun hin => absurd hnone hin) (fun hin => absurd hnone hin) (fun hin => absurd hnone hin)
      exact preflight_concludes hvalid hs htime hcancel hread
  | denied =>
    have houtcome : decision.outcome = .denied := by rw [hdecision, hread]; rfl
    refine concludes_of_neither ?_ ?_ ?_
    · rw [hread]; rintro ⟨-, -, h⟩; cases h
    · rw [hread]; rintro ⟨-, -, k, h⟩; cases h
    · rw [houtcome]; exact hneither (by rw [houtcome]; decide)
  | expired =>
    have houtcome : decision.outcome = .expired := by rw [hdecision, hread]; rfl
    refine concludes_of_neither ?_ ?_ ?_
    · rw [hread]; rintro ⟨-, -, h⟩; cases h
    · rw [hread]; rintro ⟨-, -, k, h⟩; cases h
    · rw [houtcome]; exact hneither (by rw [houtcome]; decide)
  | revoked =>
    have houtcome : decision.outcome = .revoked := by rw [hdecision, hread]; rfl
    refine concludes_of_neither ?_ ?_ ?_
    · rw [hread]; rintro ⟨-, -, h⟩; cases h
    · rw [hread]; rintro ⟨-, -, k, h⟩; cases h
    · rw [houtcome]; exact hneither (by rw [houtcome]; decide)

/-- Reading the approval, with a signal on the queue and no cancel command in. -/
theorem load_concludes {input : RemediationActivityInput}
    (hvalid : activityInput value "request-approval" none = .ok input) (hs : Undecided s)
    (hfields : s.fields = fieldsAfter script.waited) (hlog : s.world.log = script.waited)
    (htime : ¬script.TimesOut) (hcancel : s.fields.cancelCommand = none) :
    Concludes n script rest value (loadApproval (scriptWorld n script rest) value) s := by
  unfold Concludes loadApproval
  rw [Exec.sat_bind]
  refine sat_popApproval (fun hempty => ?_) (fun command queue hqueue => ?_)
  · -- the workflow is awake and there is no cancel command, so the queue holds a command
    have hawake : awake s.fields = true := by
      rw [hfields]; exact (awake_iff _).mpr htime
    rw [awake, hempty, hcancel] at hawake
    exact absurd hawake (by decide)
  rw [Exec.sat_bind]
  refine sat_callActivity (fun e he => ?_) (fun loadInput signals o w _ hworld => ?_)
    (fun input signals cause w hworld => ?_)
  · obtain ⟨loadInput, hloadInput⟩ :
        ∃ input, activityInput value "load-approval" (some command) = .ok input :=
      activityInput_shorter hvalid (by decide) (by decide)
    rw [hloadInput] at he; cases he
  · simp only [scriptWorld, hlog, Prod.mk.injEq, Except.ok.injEq] at hworld
    obtain ⟨⟨rfl, rfl⟩, rfl⟩ := hworld
    refine follow_concludes hvalid rfl hs rfl rfl rfl ?_ htime ?_
    · have hlooked : fieldsAfter script.looked =
          handleAll handle s.fields (signalsOf (script.loading ++ script.replying)) := by
        rw [hfields, ← fieldsAfter_append, Script.looked, Script.read, List.append_assoc]
      rw [hlooked]
      have hseen : ({ s.fields with approvalCommands := queue } : WorkflowFields).seenCommands =
          s.fields.seenCommands := rfl
      exact cancelCommand_of_popped hseen rfl _
    · rw [CancelAccepted, ← hfields, hcancel]
      exact fun h => h rfl
  · simp only [scriptWorld, Prod.mk.injEq, reduceCtorEq, and_false, false_and] at hworld

/-- The approval wait is over. -/
theorem afterWait_concludes {input : RemediationActivityInput}
    (hvalid : activityInput value "request-approval" none = .ok input) (hs : Undecided s)
    (hfields : s.fields = fieldsAfter script.waited) (hlog : s.world.log = script.waited)
    {met : Bool} (hmet : met = awake s.fields) :
    Concludes n script rest value (afterWait (scriptWorld n script rest) value met) s := by
  unfold afterWait
  rw [hmet]
  by_cases htime : script.TimesOut
  · have hasleep : awake s.fields = false := by
      rw [hfields]
      exact Bool.eq_false_iff.mpr (fun hawake => (awake_iff _).mp hawake htime)
    rw [if_pos hasleep]
    refine concludes_of_neither (fun h => h.1 htime) (fun h => h.1 htime) ?_
    rw [Exec.sat_bind]
    exact requireOutcome_keeps (kept_neither (by decide)) hs.neither
  · have hawake : awake s.fields = true := by
      rw [hfields]; exact (awake_iff _).mpr htime
    rw [if_neg (by rw [hawake]; decide)]
    by_cases hcancel : s.fields.cancelCommand = none
    · unfold Concludes unlessCancelled
      rw [Exec.sat_bind]
      refine sat_cancelIfRequested (fun _ => ?_) (fun hin => absurd hcancel hin)
        (fun hin => absurd hcancel hin) (fun hin => absurd hcancel hin)
        (fun hin => absurd hcancel hin)
      exact load_concludes hvalid hs hfields hlog htime hcancel
    · have haccepted : CancelAccepted script.waited := by
        rw [CancelAccepted, ← hfields]; exact hcancel
      have hlooked : CancelAccepted script.looked := (haccepted.append _).append _
      refine concludes_of_neither (fun h => h.2.1 hlooked) (fun h => h.2.1 haccepted) ?_
      exact unlessCancelled_cancels (kept_neither (by decide)) hcancel hs.neither

/-- **What a run of a script comes to.** -/
theorem run_concluded (n : Nat) (script : Script) (rest : RunWorld ω)
    {input : RemediationActivityInput}
    (hvalid : activityInput value "request-approval" none = .ok input) (w : ω) :
    Concluded n script (runRemediation (scriptWorld n script rest) value
      (.start .init ⟨[], false, w⟩)).2 := by
  refine Exec.Sat.state ?_
  unfold runRemediation
  rw [Exec.sat_catching]
  show Concludes n script rest value (lifecycle (scriptWorld n script rest) value) _
  unfold Concludes lifecycle
  rw [Exec.sat_bind]
  refine sat_requireOutcome (fun e he => ?_) (fun requestInput signals o w' hworld _ => ?_)
    (fun requestInput signals o w' hworld hother => ?_)
    (fun requestInput signals cause w' hworld => ?_)
  · rw [hvalid] at he; cases he
  · simp only [scriptWorld, Progress.start, Prod.mk.injEq, Except.ok.injEq] at hworld
    obtain ⟨⟨rfl, rfl⟩, rfl⟩ := hworld
    rw [Exec.sat_bind]
    refine sat_waitCondition (fun signals w' hworld => ?_)
    simp only [scriptWorld, replied_world, if_true, Prod.mk.injEq] at hworld
    obtain ⟨rfl, rfl⟩ := hworld
    refine afterWait_concludes hvalid ?_ ?_ ?_ rfl
    · intro e he
      rw [show e = _ from List.mem_singleton.mp he]
      exact ⟨by simp, by simp⟩
    · rw [Script.waited, fieldsAfter_append]
      rfl
    · rfl
  · simp only [scriptWorld, Progress.start, Prod.mk.injEq, Except.ok.injEq] at hworld
    rw [← hworld.1.2] at hother
    exact absurd (by decide : Outcome.recorded ∈ [Outcome.recorded, .pending, .duplicate]) hother
  · simp only [scriptWorld, Prod.mk.injEq, reduceCtorEq, and_false, false_and] at hworld

/-- A run whose first input cannot be built makes no call. -/
theorem run_invalid {e : Failure} (hinvalid : activityInput value "request-approval" none = .error e)
    (w : ω) : (runRemediation (scriptWorld n script rest) value
      (.start .init ⟨[], false, w⟩)).2.invocations = [] := by
  have hsat : Exec.Sat (runRemediation (scriptWorld n script rest) value)
      (.start .init ⟨[], false, w⟩) (fun _ s => s.invocations = [])
      (fun _ s => s.invocations = []) := by
    unfold runRemediation lifecycle
    rw [Exec.sat_catching, Exec.sat_bind]
    refine sat_requireOutcome_invalid hinvalid ?_
    obtain ⟨error, rfl⟩ := activityInput_error hinvalid
    rfl
  exact hsat.state

end Run

/-! ## The n-th grant -/

/-- Only a decision grants an approval. -/
theorem signal_of_granted {n k : Nat} {happening : Happening}
    (h : (ApprovalState.pending k).next n happening = .granted) : happening.signal ≠ none := by
  cases happening with
  | decided commandRef disposition => exact Option.some_ne_none _
  | repeated commandRef => cases h
  | revoked => cases h
  | expired => cases h
  | cancelRequested commandRef => cases h

/-- A granted approval was granted at some point, from pending. -/
theorem granted_split {n : Nat} {log : List Happening} (h : approvalAfter n log = .granted) :
    ∃ before grant after, log = before ++ grant :: after ∧
      (∃ k, approvalAfter n before = .pending k) ∧
      approvalAfter n (before ++ [grant]) = .granted := by
  induction log using List.reverseRecOn with
  | nil => cases h
  | append_singleton log happening ih =>
    have hnext := h
    rw [approvalAfter_concat] at hnext
    cases hlog : approvalAfter n log with
    | pending k => exact ⟨log, happening, [], rfl, ⟨k, hlog⟩, h⟩
    | granted =>
      obtain ⟨before, grant, after, rfl, hpending, hgranted⟩ := ih hlog
      exact ⟨before, grant, after ++ [happening], by simp, hpending, hgranted⟩
    | denied => rw [hlog] at hnext; cases happening <;> cases hnext
    | expired => rw [hlog] at hnext; cases happening <;> cases hnext
    | revoked => rw [hlog] at hnext; cases happening <;> cases hnext

/-- Before the first signal there is no n-th grant. -/
theorem not_quorumFirst_of_silent {n : Nat} {log : List Happening} (h : signalsOf log = []) :
    ¬QuorumFirst n log := by
  rintro ⟨before, grant, after, rfl, ⟨k, hpending⟩, hgranted, -⟩
  rw [approvalAfter_concat, hpending] at hgranted
  refine signal_of_granted hgranted ?_
  exact List.filterMap_eq_nil_iff.mp h grant (List.mem_append_right _ List.mem_cons_self)

/-- An approval read as granted, with no cancel command in when it is handed over, was granted
    first. -/
theorem quorumFirst_of_granted {n : Nat} {script : Script} (htime : ¬script.TimesOut)
    (hgranted : approvalAfter n script.read = .granted) (hcancel : ¬CancelAccepted script.looked) :
    QuorumFirst n script.timeline := by
  obtain ⟨before, grant, after, hread, hpending, hgrant⟩ := granted_split hgranted
  refine ⟨before, grant, after ++ script.replying ++ script.later, ?_, hpending, hgrant, ?_⟩
  · rw [Script.timeline, if_neg htime, Script.looked, hread]
    simp
  · intro haccepted
    refine hcancel ?_
    rw [Script.looked, hread, List.append_assoc]
    exact haccepted.append _

/-! ## Every script -/

/-- The workflow reaches preflight exactly when the n-th grant comes first, and does not end on a
    pending approval. -/
def HonoursQuorum (n : Nat) (script : Script) (calls : List Called) : Prop :=
  (ReachesPreflight calls ↔ QuorumFirst n script.timeline) ∧ ¬EndsPending calls

/-- The first signal finds the approval decided, and what the n-th grant decided stands until the
    workflow has seen it. -/
structure Settled (n : Nat) (script : Script) : Prop where
  loaded : ¬script.TimesOut → ¬CancelAccepted script.waited →
    ∀ k, approvalAfter n script.read ≠ .pending k
  undisturbed : ¬script.TimesOut → QuorumFirst n script.timeline →
    approvalAfter n script.read = .granted ∧ ¬CancelAccepted script.looked

/-- The workflow can name its first operation. -/
def Nameable (value : RemediationWorkflowInput) : Prop :=
  ∃ input, activityInput value "request-approval" none = .ok input

/-- **Quorums through the workflow.**  For every quorum, every script and every rest of the world, the
    quorum is honoured exactly when the script is settled; a workflow that cannot even name its first
    operation honours those whose quorum does not come first. -/
theorem quorum_honoured_iff {ω : Type} (n : Nat) (script : Script) (rest : RunWorld ω) (w : ω)
    (value : RemediationWorkflowInput) :
    HonoursQuorum n script (runRemediation (scriptWorld n script rest) value
      (.start .init ⟨[], false, w⟩)).2.invocations ↔
    (Nameable value → Settled n script) ∧
      (¬Nameable value → ¬QuorumFirst n script.timeline) := by
  by_cases hvalid : Nameable value
  · obtain ⟨input, hinput⟩ := hvalid
    obtain ⟨hreaches, hends⟩ := run_concluded n script rest hinput w
    constructor
    · rintro ⟨hquorum, hpending⟩
      refine ⟨fun _ => ⟨fun htime hcancel k hk => ?_, fun htime hfirst => ?_⟩,
        fun hnot => absurd ⟨input, hinput⟩ hnot⟩
      · exact hpending (hends.mpr ⟨htime, hcancel, k, hk⟩)
      · have hreached := hreaches.mp (hquorum.mpr hfirst)
        exact ⟨hreached.2.2, hreached.2.1⟩
    · rintro ⟨hsettled, -⟩
      have hs := hsettled ⟨input, hinput⟩
      refine ⟨⟨fun hreached => ?_, fun hfirst => ?_⟩, fun hpending => ?_⟩
      · obtain ⟨htime, hcancel, hgranted⟩ := hreaches.mp hreached
        exact quorumFirst_of_granted htime hgranted hcancel
      · have htime : ¬script.TimesOut := by
          intro htime
          rw [Script.timeline, if_pos htime] at hfirst
          exact not_quorumFirst_of_silent htime hfirst
        obtain ⟨hgranted, hcancel⟩ := hs.undisturbed htime hfirst
        exact hreaches.mpr ⟨htime, hcancel, hgranted⟩
      · obtain ⟨htime, hcancel, k, hk⟩ := hends.mp hpending
        exact hs.loaded htime hcancel k hk
  · have hinvalid : ∃ e, activityInput value "request-approval" none = .error e := by
      cases hinput : activityInput value "request-approval" none with
      | ok input => exact absurd ⟨input, hinput⟩ hvalid
      | error e => exact ⟨e, rfl⟩
    obtain ⟨e, he⟩ := hinvalid
    rw [run_invalid he w]
    constructor
    · rintro ⟨hquorum, -⟩
      refine ⟨fun hname => absurd hname hvalid, fun _ hfirst => ?_⟩
      obtain ⟨e, hnil, -⟩ := hquorum.mpr hfirst
      cases hnil
    · rintro ⟨-, hfirst⟩
      refine ⟨⟨?_, fun h => absurd h (hfirst hvalid)⟩, ?_⟩
      · rintro ⟨e, hnil, -⟩; cases hnil
      · rintro ⟨e, hnil, -⟩; cases hnil

/-- Two grants are needed; the first is signalled while the workflow waits, the second later. -/
def twoGrants : Script where
  requested := []
  awaited := [.decided (literalIdentifier "c1") .grant]
  loading := []
  replying := []
  later := [.decided (literalIdentifier "c2") .grant]

/-- The second grant comes first of all, but the run has failed on the first. -/
theorem quorum_of_two_ends_pending :
    let run := runRemediation (scriptWorld 2 twoGrants scripted) sampleInput
      (.start .init ⟨[], false, []⟩)
    QuorumFirst 2 twoGrants.timeline ∧ run.1.toOption.map (·.status) = some .failed ∧
      ¬HonoursQuorum 2 twoGrants run.2.invocations := by
  refine ⟨⟨[.decided (literalIdentifier "c1") .grant], .decided (literalIdentifier "c2") .grant, [],
    rfl, ⟨1, rfl⟩, rfl, fun h => h rfl⟩, by decide +kernel, ?_⟩
  rintro ⟨-, hpending⟩
  have hname : (activityInput sampleInput "request-approval" none).toOption.isSome = true := by
    decide +kernel
  cases hinput : activityInput sampleInput "request-approval" none with
  | error e => rw [hinput] at hname; cases hname
  | ok input =>
    refine hpending ((run_concluded 2 twoGrants scripted hinput []).2.mpr ⟨?_, fun h => h rfl, 1, rfl⟩)
    exact List.cons_ne_nil _ _

end RemediationTemporal

end Aegis
