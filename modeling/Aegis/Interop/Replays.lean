/-
  WHAT A REPLAYED INVOCATION REPORTS, against what the ledger recorded.

  The last fact of an operation says how it ended, and the state of its projection goes with that fact
  (`Closed`).  `_task_state` reads the state back -- but RECONCILED stands for two outcomes and is read
  as COMPLETED, and the progress is 100 for SUCCEEDED only.  So a replay agrees with the recorded outcome
  exactly when the operation did not end in a reconciliation (`replay_agrees_iff`).
-/
import Mathlib
import Aegis.Interop.Evaluation
import Aegis.Interop.Invocations

namespace Aegis

namespace Interop

open Threads

variable {sha : Sha256} {texts : Texts} {ports : Ports}

/-! ## How an operation ended -/

/-- The type of the last fact. -/
def lastType (s : State) (op : String) : Option InteroperabilityFactType :=
  (s.facts op).getLast?.map (·.factType)

/-- A reconciliation of the operation was recorded, and the peer had said this state. -/
def ReconciledAs (ports : Ports) (h : List GatewayEvent) (op : String) (state : TaskState) : Prop :=
  ∃ pre observe mid settle post a peer task result, h = pre ++ observe :: mid ++ settle :: post ∧
    observe.thread = settle.thread ∧ observe.call = .reconcile a ∧ settle.call = .reconcile a ∧
    observe.label = .transportReconcile peer task ∧
    ports.reconcile peer task a.timeoutSeconds observe.before.tick = .ok result ∧
    result.1.state = state ∧ Accepts .invocationReconciled op settle

/-- The operation ended with a peer status of COMPLETED, directly or by reconciliation. -/
def EndedCompleted (ports : Ports) (h : List GatewayEvent) (s : State) (op : String) : Prop :=
  lastType s op = some .invocationSucceeded ∨
    (lastType s op = some .invocationReconciled ∧ ReconciledAs ports h op .completed)

/-- It ended in failure, directly or by a reconciliation whose status was FAILED. -/
def EndedFailed (ports : Ports) (h : List GatewayEvent) (s : State) (op : String) : Prop :=
  lastType s op = some .invocationFailed ∨
    (lastType s op = some .invocationReconciled ∧ ReconciledAs ports h op .failed)

/-- The report says what was recorded. -/
structure Agrees (ports : Ports) (h : List GatewayEvent) (s : State) (op : String)
    (status : StatusContract) : Prop where
  completed : status.state = .completed ↔ EndedCompleted ports h s op
  failed : status.state = .failed ↔ EndedFailed ports h s op
  cancelled : status.state = .cancelled ↔ lastType s op = some .taskCancelled
  progress : status.progressPercent = 100 ↔ EndedCompleted ports h s op

/-! ## The last fact and the state -/

/-- The state of an operation goes with its last fact. -/
def Closed (s : State) : Prop :=
  ∀ op p, s.projections op = some p → ∃ factType, lastType s op = some factType ∧ Leaves factType p.state

theorem Closed.step {s s' : State} {φ φ' : Phase} {label : GatewayStep} (hs : Closed s)
    (h : Advance sha texts ports φ label s s' φ') : Closed s' := by
  rcases h.ledger with hsame | ⟨c, p, fact, -, hleaves, hrecorded⟩
  · intro op p hp
    unfold lastType
    rw [hsame.facts]
    rw [hsame.projections] at hp
    exact hs op p hp
  · intro op p' hp'
    unfold lastType
    rw [hrecorded.facts]
    rw [hrecorded.projections] at hp'
    split at hp'
    · rename_i hop
      cases hp'
      refine ⟨c.factType, ?_, hleaves⟩
      rw [if_pos hop, List.getLast?_concat, Option.map_some, (buildFact_fields hrecorded.built).1]
    · rename_i hop
      rw [if_neg hop]
      exact hs op p' hp'

theorem closed_kept : Kept (Advance sha texts ports) Phase.free (fun _ => True) (fun _ => True)
    (fun s _ => Closed s) where
  start := fun _ _ _ _ _ hs _ => hs
  turn := fun _ _ _ _ _ _ _ _ hs _ hstep _ => hs.step hstep
  crash := fun _ _ _ _ hs => hs

theorem closed_run (moves : List (Move GatewayCall)) : Closed (gatewayRun sha texts ports moves).shared := by
  have hstart : Closed State.init := by
    intro op p hp
    exact absurd (show (none : Option InvocationProjection) = some p from hp) (Option.some_ne_none p).symm
  have hkept : Kept (Advance sha texts ports) Phase.free (fun _ => True) (fun _ => True)
      (fun s _ => Closed s) := closed_kept
  obtain ⟨phases, -, hJ⟩ := hkept.run follows_program moves (phased_start State.init) hstart
    (fun _ _ => trivial) fun _ _ => trivial
  exact hJ

/-- What is reported of a state, by the fact that left the operation in it. -/
theorem reported_of_leaves {factType : InteroperabilityFactType} {state : InvocationState}
    (hleaves : Leaves factType state) (hother : factType ≠ .invocationReconciled) :
    (taskState state = .completed ↔ factType = .invocationSucceeded) ∧
      (taskState state = .failed ↔ factType = .invocationFailed) ∧
      (taskState state = .cancelled ↔ factType = .taskCancelled) ∧
      ((if state = .succeeded then 100 else 0) = 100 ↔ factType = .invocationSucceeded) := by
  cases factType with
  | invocationReconciled => exact absurd rfl hother
  | taskCancelRequested =>
    -- an open state: requested, claimed or ambiguous
    cases state with
    | requested => decide
    | claimed => decide
    | ambiguous => decide
    | succeeded => exact absurd (by decide) hleaves
    | failed => exact absurd (by decide) hleaves
    | cancelled => exact absurd (by decide) hleaves
    | reconciled => exact absurd (by decide) hleaves
    | quarantined => exact absurd (by decide) hleaves
  | invocationRequested => rw [show state = .requested from hleaves]; decide
  | invocationClaimed => rw [show state = .claimed from hleaves]; decide
  | invocationSucceeded => rw [show state = .succeeded from hleaves]; decide
  | invocationFailed => rw [show state = .failed from hleaves]; decide
  | invocationAmbiguous => rw [show state = .ambiguous from hleaves]; decide
  | taskCancelled => rw [show state = .cancelled from hleaves]; decide
  | trustRegistered => exact hleaves.elim
  | trustReviewed => exact hleaves.elim
  | trustQuarantined => exact hleaves.elim
  | trustRevoked => exact hleaves.elim
  | artifactAccepted => exact hleaves.elim
  | artifactQuarantined => exact hleaves.elim
  | proposalSubmitted => exact hleaves.elim

/-! ## A later call -/

/-- An invocation of a recorded operation replays it. -/
theorem invoke_replays {a : InvokeCall} {s s' : State} {existing : InvocationProjection}
    (hexisting : s.projections a.operationId = some existing) {r : InvocationResult}
    (hrun : (invoke sha texts ports a).exec s = (.ok r, s')) :
    ∃ requestDigest now, replay sha texts a existing requestDigest now = .ok r := by
  have halong : Steps.Along (fun _ _ => True) (fun _ => True)
      (fun res _ => ∀ r, res = .ok r → ∃ requestDigest now,
        replay sha texts a existing requestDigest now = .ok r) (invoke sha texts ports a) s := by
    have hfail : ∀ (e : Failure) r, (.error e : Except Failure InvocationResult) = .ok r →
        ∃ requestDigest now, replay sha texts a existing requestDigest now = .ok r :=
      fun _ _ he => by cases he
    unfold invoke
    refine Steps.Along.check (fun _ => hfail _) fun _ => Steps.Along.check (fun _ => hfail _) fun _ => ?_
    refine Steps.Along.atom fun _ => same_allow.mono (fun allowed s₁ h₁ => ⟨trivial, ?_⟩)
      fun e _ _ => ⟨trivial, hfail e⟩
    refine Steps.Along.check (fun _ => hfail _) fun _ => ?_
    refine Steps.Along.atom fun _ => same_ask.mono (fun now s₂ h₂ => ⟨trivial, ?_⟩)
      fun e _ _ => ⟨trivial, hfail e⟩
    refine Steps.Along.attempt (fun e _ => hfail e) fun requestDigest _ => ?_
    refine Steps.Along.atom fun _ => ?_
    have hread : s₂.projections a.operationId = some existing := by
      rw [h₂.1.projections, h₁.projections]
      exact hexisting
    rw [Exec.sat_bind, Exec.sat_read]
    show True ∧ Steps.Along _ _ _ _ _
    rw [hread]
    exact ⟨trivial, fun r hr => ⟨requestDigest, now, hr⟩⟩
  have hout := halong.exec fun _ _ => trivial
  rw [hrun] at hout
  exact hout r rfl

/-- **A replay agrees with the recorded outcome exactly when that is no reconciliation**: after every
    interleaving of calls, of every later invocation of a recorded operation. -/
theorem replay_agrees_iff (sha : Sha256) (texts : Texts) (ports : Ports)
    (moves : List (Move GatewayCall)) (a : InvokeCall) (r : InvocationResult) (s' : State)
    (hrecorded : (gatewayRun sha texts ports moves).shared.projections a.operationId ≠ none)
    (hrun : (invoke sha texts ports a).exec (gatewayRun sha texts ports moves).shared = (.ok r, s')) :
    r.replayed = true ∧
      (Agrees ports (gatewayEvents sha texts ports moves) (gatewayRun sha texts ports moves).shared
          a.operationId r.status ↔
        lastType (gatewayRun sha texts ports moves).shared a.operationId ≠ some .invocationReconciled) := by
  obtain ⟨existing, hexisting⟩ := Option.ne_none_iff_exists'.mp hrecorded
  obtain ⟨requestDigest, now, hreplay⟩ := invoke_replays hexisting hrun
  obtain ⟨hreplayed, -, hstate, hprogress⟩ := replay_ok hreplay
  obtain ⟨factType, hlast, hleaves⟩ := closed_run moves a.operationId existing hexisting
  refine ⟨hreplayed, ?_⟩
  constructor
  · intro hagrees hreconciled
    -- COMPLETED is reported, with a progress of 0
    rw [hreconciled] at hlast
    cases hlast
    have hended := hagrees.completed.mp (by rw [hstate, show existing.state = .reconciled from hleaves]; rfl)
    have hfull := hagrees.progress.mpr hended
    rw [hprogress, show existing.state = .reconciled from hleaves] at hfull
    exact absurd hfull (by decide)
  · intro hdirect
    have hcompleted : EndedCompleted ports (gatewayEvents sha texts ports moves)
        (gatewayRun sha texts ports moves).shared a.operationId ↔ factType = .invocationSucceeded := by
      unfold EndedCompleted
      rw [hlast] at hdirect ⊢
      exact ⟨fun h => h.elim Option.some.inj fun h => absurd h.1 hdirect, fun h => .inl (congrArg _ h)⟩
    have hfailed : EndedFailed ports (gatewayEvents sha texts ports moves)
        (gatewayRun sha texts ports moves).shared a.operationId ↔ factType = .invocationFailed := by
      unfold EndedFailed
      rw [hlast] at hdirect ⊢
      exact ⟨fun h => h.elim Option.some.inj fun h => absurd h.1 hdirect, fun h => .inl (congrArg _ h)⟩
    have hcancelled : lastType (gatewayRun sha texts ports moves).shared a.operationId =
        some .taskCancelled ↔ factType = .taskCancelled := by
      rw [hlast]
      exact ⟨Option.some.inj, congrArg _⟩
    have hother : factType ≠ .invocationReconciled := fun h => hdirect (by rw [hlast, h])
    have htable : (taskState existing.state = .completed ↔ factType = .invocationSucceeded) ∧
        (taskState existing.state = .failed ↔ factType = .invocationFailed) ∧
        (taskState existing.state = .cancelled ↔ factType = .taskCancelled) ∧
        ((if existing.state = .succeeded then 100 else 0) = 100 ↔ factType = .invocationSucceeded) := by
      exact reported_of_leaves hleaves hother
    refine ⟨?_, ?_, ?_, ?_⟩
    · rw [hstate, hcompleted]
      exact htable.1
    · rw [hstate, hfailed]
      exact htable.2.1
    · rw [hstate, hcancelled]
      exact htable.2.2.1
    · rw [hprogress, hcompleted]
      exact htable.2.2.2

/-! ## A failure that is replayed as a success -/

/-- A status as a run returned it. -/
theorem reported_of_eval {x : Except Failure InvocationResult × State} {report : TaskState × Nat}
    (h : x.1.toOption.map (fun r => (r.status.state, r.status.progressPercent)) = some report) :
    ∃ r s', x = (.ok r, s') ∧ r.status.state = report.1 ∧ r.status.progressPercent = report.2 := by
  obtain ⟨res, s'⟩ := x
  cases res with
  | error e => cases h
  | ok r =>
    have hreport := Option.some.inj h
    exact ⟨r, s', rfl, congrArg Prod.fst hreport, congrArg Prod.snd hreport⟩

/-- COMPLETED with a progress of 0 agrees with nothing. -/
theorem not_agrees {h : List GatewayEvent} {s : State} {op : String} {status : StatusContract}
    (hstate : status.state = .completed) (hprogress : status.progressPercent = 0) :
    ¬Agrees ports h s op status := by
  intro hagrees
  have hfull := hagrees.progress.mpr (hagrees.completed.mp hstate)
  rw [hprogress] at hfull
  exact absurd hfull (by decide)

theorem sample_report :
    ((invoke .constant sampleTexts samplePorts sampleInvoke).exec
        (gatewayRun .constant sampleTexts samplePorts sampleMoves).shared).1.toOption.map
        (fun r => (r.status.state, r.status.progressPercent)) = some (.completed, 0) ∧
      ((gatewayRun .constant sampleTexts samplePorts sampleMoves).shared.projections
        sampleInvoke.operationId).isSome = true := by
  simp only [gatewayRun, program_eq, invoke, reconcile, cancel, cancelCurrent, invokeNew, claimAndCall,
    conclude, replay, appendFact, append, buildFact, InvokeCall.newTask, InvokeCall.newProjection,
    taskFromProjection, validated, validateResult]
  rw [digestValue_eq, parseIdentifier_eq, rejectRawLedgerPayload_eq]
  decide +kernel

theorem replay_agrees_sample : ∃ r s',
    (invoke .constant sampleTexts samplePorts sampleInvoke).exec
        (gatewayRun .constant sampleTexts samplePorts sampleMoves).shared = (.ok r, s') ∧
      r.replayed = true := by
  obtain ⟨r, s', hrun, -⟩ := reported_of_eval sample_report.1
  exact ⟨r, s', hrun, (replay_agrees_iff .constant sampleTexts samplePorts sampleMoves sampleInvoke r s'
    (Option.isSome_iff_ne_none.mp sample_report.2) hrun).1⟩

/-- The peer said FAILED at the reconciliation, and the replay says COMPLETED. -/
theorem failure_reported_completed : ∃ r s',
    (invoke .constant sampleTexts samplePorts sampleInvoke).exec
        (gatewayRun .constant sampleTexts samplePorts sampleMoves).shared = (.ok r, s') ∧
      ¬Agrees samplePorts (gatewayEvents .constant sampleTexts samplePorts sampleMoves)
        (gatewayRun .constant sampleTexts samplePorts sampleMoves).shared sampleInvoke.operationId
        r.status := by
  obtain ⟨r, s', hrun, hstate, hprogress⟩ := reported_of_eval sample_report.1
  exact ⟨r, s', hrun, not_agrees hstate hprogress⟩

end Interop

end Aegis
