/-
  WHAT EACH OPERATION CAN DO TO THE STORE, said once.

  One judgment per operation.  Every operation does one of four things (`Effect`): nothing, one
  append, a change of delivery records, or a new projection checkpoint.  In particular an operation
  that raises does NOTHING: the checks come before the writes, `acceptRun` takes its idempotency
  record back, and a rebuild puts back what it removed.

  The invariant of the ledger follows for every run (`ledgerInvariant_run`).
-/
import Mathlib
import Aegis.Durability.Ledger

namespace Aegis

namespace Durability

variable {sha : Sha256} {s : Store}

/-! ## Appends and their callers -/

theorem append_sat (sha : Sha256) (t ty id : String) (expectedVersion : Int)
    (drafts : List EventDraft) (outbox : List OutboxDraft) (inbox : List InboxDraft) (s : Store) :
    Exec.Sat (append sha t ty id expectedVersion drafts outbox inbox) s
      (fun appended s' => ∃ last projected, Appended sha t ty id expectedVersion drafts outbox inbox
        s appended last projected s')
      (fun _ s' => s' = s) := by
  unfold append
  refine Exec.Sat.check (fun _ => rfl) fun _ => ?_
  exact appendLocked_sat sha t ty id expectedVersion drafts outbox inbox s

theorem replayLegacy_sat (sha : Sha256) (t id actor correlation : String) (legacy : List LegacyEvent)
    (upcast : LegacyEvent → Except Error (String × Fields)) (s : Store) :
    Exec.Sat (replayLegacy sha t id actor correlation legacy upcast) s
      (fun appended s' => ∃ drafts last projected,
        legacyDrafts sha t id actor correlation upcast 1 legacy = .ok drafts ∧
        Appended sha t "investigation" id 0 drafts [] [] s appended last projected s')
      (fun _ s' => s' = s) := by
  unfold replayLegacy
  refine Exec.Sat.attempt (fun _ _ => rfl) fun drafts hdrafts => ?_
  refine (append_sat sha t "investigation" id 0 drafts [] [] s).mono ?_ (fun _ _ h => h)
  rintro appended s' ⟨last, projected, h⟩
  exact ⟨drafts, last, projected, hdrafts, h⟩

/-- Reading a run that is there. -/
theorem runAt_sat {key : String × String} {run : RunView} {Q : RunView → Store → Prop}
    {R : Error → Store → Prop} (hrun : s.runs key = some run) (h : Q run s) :
    Exec.Sat (runAt key) s Q R := by
  unfold runAt
  rw [Exec.sat_bind, Exec.sat_read]
  simp only [hrun]
  exact (Exec.sat_pure run).mpr h

/-- The store with the idempotency record `acceptRun` writes. -/
def withIdempotency (sha : Sha256) (identity : IdentityContext) (request : InvestigationRequest)
    (waitForSignal : Bool) (s : Store) : Store :=
  s.setIdempotency (identity.tenantId.val, identity.requestId.val)
    (some { fingerprint := sha.hexdigest (requestText request waitForSignal),
            runId := runIdOf sha identity request })

/-- `accept_run` of a new request: one append, of one event and one outbox message. -/
structure NewRun (sha : Sha256) (identity : IdentityContext) (request : InvestigationRequest)
    (waitForSignal : Bool) (now : Datetime) (s : Store) (traceRef : String)
    (drafts : EventDraft × OutboxDraft) (appended : List ApplicationEvent)
    (last : ApplicationEvent) (projected : String × String → Option RunView) (run : RunView)
    (s' : Store) : Prop where
  absent : s.idempotency (identity.tenantId.val, identity.requestId.val) = none
  drafts_ok : runDrafts sha identity request waitForSignal traceRef now = .ok drafts
  append : Appended sha identity.tenantId.val "investigation" (runIdOf sha identity request).val 0
    [drafts.1] [drafts.2] [] (withIdempotency sha identity request waitForSignal s) appended last
    projected s'
  run : s'.runs (identity.tenantId.val, (runIdOf sha identity request).val) = some run

/-- `accept_run` of a request that was accepted before. -/
def Replay (sha : Sha256) (identity : IdentityContext) (request : InvestigationRequest)
    (waitForSignal : Bool) (s : Store) (view : RunView) : Prop :=
  ∃ existing run, s.idempotency (identity.tenantId.val, identity.requestId.val) = some existing ∧
    existing.fingerprint = sha.hexdigest (requestText request waitForSignal) ∧
    s.runs (identity.tenantId.val, existing.runId.val) = some run ∧
    view = { run with replayed := true }

theorem withIdempotency_keeps (hinv : LedgerInvariant sha s) (identity : IdentityContext)
    (request : InvestigationRequest) (waitForSignal : Bool) :
    LedgerInvariant sha (withIdempotency sha identity request waitForSignal s) :=
  hinv.congr rfl rfl rfl rfl rfl

/-- **`accept_run`** replays, appends once, or does nothing. -/
theorem acceptRun_sat (hinv : LedgerInvariant sha s) (identity : IdentityContext)
    (request : InvestigationRequest) (waitForSignal : Bool) (now : Datetime) :
    Exec.Sat (acceptRun sha identity request waitForSignal now) s
      (fun run s' => (Replay sha identity request waitForSignal s run ∧ s' = s) ∨
        ∃ traceRef drafts appended last projected, NewRun sha identity request waitForSignal now s
          traceRef drafts appended last projected run s')
      (fun _ s' => s' = s) := by
  unfold acceptRun
  rw [Exec.sat_bind, Exec.sat_read]
  cases hkey : s.idempotency (identity.tenantId.val, identity.requestId.val) with
  | some existing =>
    refine Exec.Sat.check (fun _ => rfl) fun hprint => ?_
    rw [Exec.sat_bind]
    unfold runAt
    rw [Exec.sat_bind, Exec.sat_read]
    cases hrun : s.runs (identity.tenantId.val, existing.runId.val) with
    | none => exact (Exec.sat_raise _).mpr rfl
    | some run => exact Or.inl ⟨⟨existing, run, hkey, hprint, hrun, rfl⟩, rfl⟩
  | none =>
    dsimp only
    refine Exec.Sat.attempt (fun _ _ => rfl) fun traceRef _ => ?_
    rw [Exec.sat_bind, Exec.sat_lift]
    refine ⟨fun drafts hdrafts => ?_, fun _ _ => rfl⟩
    rw [Exec.sat_bind, Exec.sat_modify, Exec.sat_bind, Exec.sat_onError]
    have happend := appendLocked_sat sha identity.tenantId.val "investigation"
      (runIdOf sha identity request).val 0 [drafts.1] [drafts.2] []
      (withIdempotency sha identity request waitForSignal s)
    refine happend.mono ?_ ?_
    · rintro appended s' ⟨last, projected, h⟩
      obtain ⟨run, hrun⟩ := h.run_some (withIdempotency_keeps hinv identity request waitForSignal)
      refine runAt_sat hrun (Or.inr ⟨traceRef, drafts, appended, last, projected, ?_⟩)
      exact ⟨hkey, hdrafts, h, hrun⟩
    · -- the append raised: the record just written is removed again
      rintro _ s' rfl
      simp only [withIdempotency, Store.setIdempotency, Function.update_idem]
      rw [← hkey, Function.update_eq_self]

/-- A transition that was not recorded before: one append, of one event. -/
structure NewTransition (sha : Sha256) (t runId eventType operationId actorRef requestRef : String)
    (failureCode : Option String) (attributes : Option Fields) (now : Datetime) (s : Store)
    (current : RunView) (draft : EventDraft) (appended : List ApplicationEvent)
    (last : ApplicationEvent) (projected : String × String → Option RunView) (run : RunView)
    (s' : Store) : Prop where
  at_run : s.runs (t, runId) = some current
  draft_ok : transitionDraft sha runId eventType operationId actorRef requestRef failureCode
    attributes now = .ok draft
  append : Appended sha t "investigation" runId current.version [draft] [] [] s appended last
    projected s'
  run : s'.runs (t, runId) = some run

/-- **`record_transition`** replays, appends once, or does nothing. -/
theorem recordTransition_sat (hinv : LedgerInvariant sha s)
    (t runId eventType operationId actorRef requestRef : String) (failureCode : Option String)
    (attributes : Option Fields) (now : Datetime) :
    Exec.Sat (recordTransition sha t runId eventType operationId actorRef requestRef failureCode
        attributes now) s
      (fun run s' => s' = s ∨ ∃ current draft appended last projected,
        NewTransition sha t runId eventType operationId actorRef requestRef failureCode attributes
          now s current draft appended last projected run s')
      (fun _ s' => s' = s) := by
  unfold recordTransition
  rw [Exec.sat_bind, Exec.sat_read]
  cases hcurrent : s.runs (t, runId) with
  | none => exact (Exec.sat_raise _).mpr rfl
  | some current =>
    dsimp only
    split
    · exact Or.inl rfl
    · refine Exec.Sat.attempt (fun _ _ => rfl) fun draft hdraft => ?_
      refine Exec.Sat.call (appendLocked_sat sha t "investigation" runId current.version [draft] []
        [] s) (fun _ _ h => h) ?_
      rintro appended s' ⟨last, projected, h⟩
      obtain ⟨run, hrun⟩ := h.run_some hinv
      refine runAt_sat hrun (Or.inr ⟨current, draft, appended, last, projected, ?_⟩)
      exact ⟨hcurrent, hdraft, h, hrun⟩

/-- A command that was not accepted before: one append, of one event, one outbox message and one
    inbox record. -/
structure NewSignal (sha : Sha256) (identity : IdentityContext) (command : SignalCommand)
    (availableAt occurredAt : Datetime) (s : Store) (current : RunView)
    (drafts : InboxDraft × OutboxDraft × EventDraft) (appended : List ApplicationEvent)
    (last : ApplicationEvent) (projected : String × String → Option RunView) (run : RunView)
    (s' : Store) : Prop where
  at_run : s.runs (identity.tenantId.val, command.runId.val) = some current
  absent : s.deliveries.lookup (identity.tenantId.val, .inbox, command.commandId.val) = none
  bounded : command.commandType = .resume →
    resumeCount s.deliveries identity.tenantId.val command.runId.val < maxResumeCommands
  drafts_ok : signalDrafts sha identity command current availableAt occurredAt = .ok drafts
  append : Appended sha identity.tenantId.val "investigation" command.runId.val current.version
    [drafts.2.2] [drafts.2.1] [drafts.1] s appended last projected s'
  run : s'.runs (identity.tenantId.val, command.runId.val) = some run

/-- The command was accepted before, for the same run and of the same type. -/
def SignalReplay (identity : IdentityContext) (command : SignalCommand) (s : Store)
    (view : RunView) : Prop :=
  ∃ current existing, s.runs (identity.tenantId.val, command.runId.val) = some current ∧
    s.deliveries.lookup (identity.tenantId.val, .inbox, command.commandId.val) = some existing ∧
    existing.messageType = command.commandType.messageType ∧
    payloadRunIs existing.payload command.runId.val = true ∧
    view = { current with replayed := true }

/-- **`accept_signal`** replays, appends once, or does nothing. -/
theorem acceptSignal_sat (hinv : LedgerInvariant sha s) (identity : IdentityContext)
    (command : SignalCommand) (availableAt occurredAt : Datetime) :
    Exec.Sat (acceptSignal sha identity command availableAt occurredAt) s
      (fun run s' => (SignalReplay identity command s run ∧ s' = s) ∨
        ∃ current drafts appended last projected, NewSignal sha identity command availableAt
          occurredAt s current drafts appended last projected run s')
      (fun _ s' => s' = s) := by
  unfold acceptSignal
  rw [Exec.sat_bind, Exec.sat_read]
  cases hcurrent : s.runs (identity.tenantId.val, command.runId.val) with
  | none => exact (Exec.sat_raise _).mpr rfl
  | some current =>
    cases hexisting : s.deliveries.lookup
        (identity.tenantId.val, .inbox, command.commandId.val) with
    | some existing =>
      refine Exec.Sat.check (fun _ => rfl) fun hsame => ?_
      exact Or.inl ⟨⟨current, existing, hcurrent, hexisting, hsame.1, hsame.2, rfl⟩, rfl⟩
    | none =>
      refine Exec.Sat.check (fun _ => rfl) fun hbound => ?_
      refine Exec.Sat.attempt (fun _ _ => rfl) fun drafts hdrafts => ?_
      refine Exec.Sat.call (appendLocked_sat sha identity.tenantId.val "investigation"
        command.runId.val current.version [drafts.2.2] [drafts.2.1] [drafts.1] s)
        (fun _ _ h => h) ?_
      rintro appended s' ⟨last, projected, h⟩
      obtain ⟨run, hrun⟩ := h.run_some hinv
      refine runAt_sat hrun (Or.inr ⟨current, drafts, appended, last, projected, ?_⟩)
      exact ⟨hcurrent, hexisting, hbound, hdrafts, h, hrun⟩

/-! ## Deliveries -/

theorem claimOutbox_sat (sha : Sha256) (t workerRef : String) (now claimUntil : Datetime)
    (limit : Int) (s : Store) :
    Exec.Sat (claimOutbox sha t workerRef now claimUntil limit) s
      (fun claims s' => now < claimUntil ∧
        (claims, s'.deliveries) = claimLoop sha workerRef claimUntil
          (candidates s.deliveries t now limit.toNat) s.deliveries ∧
        s' = { s with deliveries := s'.deliveries })
      (fun _ s' => s' = s) := by
  unfold claimOutbox
  refine Exec.Sat.check (fun _ => rfl) fun hbounds => ?_
  rw [Exec.sat_bind, Exec.sat_read, Exec.sat_bind, Exec.sat_modify, Exec.sat_pure]
  exact ⟨hbounds.2.2, rfl, rfl⟩

theorem updateClaim_sat (claim : DeliveryClaim) (status : DeliveryStatus)
    (errorCode : Option String) (retryAt : Option Datetime) (s : Store) :
    Exec.Sat (updateClaim claim status errorCode retryAt) s
      (fun _ s' => ∃ record, s.deliveries.lookup (claimKey claim) = some record ∧
        ownsClaim record claim ∧
        s' = { s with deliveries := s.deliveries.insert (claimKey claim)
                        (settledRecord record status errorCode retryAt) })
      (fun e s' => s' = s ∧ e = ⟨.messageClaimConflict, "outbox claim is stale or not owned"⟩ ∧
        ∀ record, s.deliveries.lookup (claimKey claim) = some record → ¬ownsClaim record claim) := by
  unfold updateClaim
  rw [Exec.sat_bind, Exec.sat_read]
  cases hrecord : s.deliveries.lookup (claimKey claim) with
  | none =>
    refine (Exec.sat_raise _).mpr ⟨rfl, rfl, ?_⟩
    rintro record h; cases h
  | some record =>
    refine Exec.Sat.check (fun hno => ⟨rfl, rfl, ?_⟩) fun howns => ?_
    · rintro record' h; cases h; exact hno
    · exact (Exec.sat_modify _).mpr ⟨record, rfl, howns, rfl⟩

/-! ## Rebuilds -/

/-- The runs after the fold of `events` onto the runs of `s`, where every fold succeeds. -/
def FoldsTo (t : String) (events : List ApplicationEvent) (s s' : Store) : Prop :=
  ∀ r, foldRun (s.runs (t, r)) (runEvents events r) = .ok (s'.runs (t, r))

/-- Replaying events moves the runs of their tenant along the fold and nothing else. -/
theorem applyProjection_sat {t : String} (target : Store) :
    ∀ (events : List ApplicationEvent) (s : Store), (∀ e ∈ events, e.tenantId.val = t) →
    FoldsTo t events s target →
    Exec.Sat (applyProjectionLocked events) s
      (fun _ s' => (∀ r, s'.runs (t, r) = target.runs (t, r)) ∧
        (∀ u r, u ≠ t → s'.runs (u, r) = s.runs (u, r)) ∧ s' = { s with runs := s'.runs })
      (fun _ _ => False) := by
  intro events
  induction events with
  | nil =>
    intro s _ hfold
    refine ⟨fun r => ?_, fun _ _ _ => rfl, rfl⟩
    exact Except.ok.inj (hfold r)
  | cons e events ih =>
    intro s htenant hfold
    have hrest : ∀ e ∈ events, e.tenantId.val = t :=
      fun e he => htenant e (List.mem_cons_of_mem _ he)
    have het := htenant e List.mem_cons_self
    show Exec.Sat (applyEvent e >>= fun _ => applyProjectionLocked events) s _ _
    unfold applyEvent
    by_cases hty : e.aggregateType.val = "investigation"
    · rw [if_neg (not_not.mpr hty)]
      -- the fold of the event's own run shows that `reduceRun` succeeds
      have hown := hfold e.aggregateId.val
      rw [runEvents, List.filter_cons_of_pos (by simp [hty]), ← runEvents] at hown
      obtain ⟨run, hrun, -⟩ := except_bind_ok.mp hown
      rw [Exec.sat_bind, Exec.sat_bind, Exec.sat_read]
      have hrun' : reduceRun (s.runs (e.tenantId.val, e.aggregateId.val)) e = .ok run := by
        rw [het]; exact hrun
      refine Exec.Sat.attempt (fun err herr => ?_) fun run' hrun'' => ?_
      · rw [hrun'] at herr; cases herr
      · rw [hrun'] at hrun''
        obtain rfl := Except.ok.inj hrun''
        rw [Exec.sat_modify, het]
        refine (ih _ hrest ?_).mono ?_ (fun _ _ h => h)
        · intro r
          have hr := hfold r
          by_cases hid : r = e.aggregateId.val
          · subst hid
            rw [runEvents, List.filter_cons_of_pos (by simp [hty]), ← runEvents] at hr
            simp only [Function.update_self]
            obtain ⟨run', hrun', hr⟩ := except_bind_ok.mp hr
            rw [hrun] at hrun'
            rw [← Except.ok.inj hrun'] at hr
            exact hr
          · rw [runEvents, List.filter_cons_of_neg (by simp [Ne.symm hid]), ← runEvents] at hr
            simp only [Function.update_of_ne (fun h => hid (Prod.mk.inj h).2 :
              (t, r) ≠ (t, e.aggregateId.val))]
            exact hr
        · rintro _ s' ⟨hruns, hother, hs'⟩
          refine ⟨hruns, fun u r hu => ?_, hs'⟩
          exact (hother u r hu).trans (Function.update_of_ne (fun h => hu (Prod.mk.inj h).1) _ _)
    · rw [if_pos hty, Exec.sat_bind, Exec.sat_pure]
      refine ih s hrest (fun r => ?_)
      have hr := hfold r
      rw [runEvents, List.filter_cons_of_neg (by simp [hty]), ← runEvents] at hr
      exact hr

/-- **`rebuild_run_projections`** leaves the runs as they were. -/
theorem rebuildRunProjections_sat (hinv : LedgerInvariant sha s) (t : String) :
    Exec.Sat (rebuildRunProjections t) s
      (fun _ s' => s' = { s with projectionCheckpoints := s'.projectionCheckpoints })
      (fun _ s' => s' = s) := by
  unfold rebuildRunProjections
  rw [Exec.sat_bind, Exec.sat_modify, Exec.sat_bind, Exec.sat_read]
  have hfold : FoldsTo t (s.events t)
      { s with runs := fun key => if key.1 = t then none else s.runs key } s := by
    intro r
    simp only [↓reduceIte]
    exact hinv.runs t r
  refine Exec.Sat.call (applyProjection_sat s (s.events t) _ (fun e he => (hinv.chain t).tenant he)
    hfold) (fun _ _ h => h.elim) ?_
  rintro _ s' ⟨hruns, hother, hs'⟩
  have hback : s' = s := by
    rw [hs']
    have : s'.runs = s.runs := by
      funext ⟨u, r⟩
      by_cases hu : u = t
      · subst hu; exact hruns r
      · rw [hother u r hu]; exact if_neg hu
    rw [this]
  subst hback
  refine Exec.Sat.attempt (fun _ _ => rfl) fun tenant _ => ?_
  rw [Exec.sat_bind, Exec.sat_modify, Exec.sat_pure]

/-- **`rebuild_run`** changes nothing. -/
theorem rebuildRun_sat (hinv : LedgerInvariant sha s) (t r : String) :
    Exec.Sat (rebuildRun sha t r) s (fun _ s' => s' = s) (fun _ s' => s' = s) := by
  unfold rebuildRun
  rw [Exec.sat_bind, Exec.sat_read]
  refine Exec.Sat.attempt (fun _ _ => rfl) fun verified _ => ?_
  refine Exec.Sat.check (fun _ => rfl) fun _ => ?_
  refine Exec.Sat.check (fun _ => rfl) fun _ => ?_
  refine Exec.Sat.attempt (fun _ _ => rfl) fun projection hprojection => ?_
  rw [hinv.runs t r] at hprojection
  cases projection with
  | none => exact (Exec.sat_raise _).mpr rfl
  | some run =>
    have hrun : s.runs (t, r) = some run := Except.ok.inj hprojection
    rw [Exec.sat_bind, Exec.sat_modify, Exec.sat_pure, ← hrun, Function.update_eq_self]

/-! ## Every operation -/

/-- What an operation can do to the store. -/
inductive Effect (sha : Sha256) (s : Store) : Store → Prop
  | none : Effect sha s s
  | append (idempotency : String × String → Option IdempotencyRecord) {t ty id : String}
      {expectedVersion : Int} {drafts : List EventDraft} {outbox : List OutboxDraft}
      {inbox : List InboxDraft} {appended : List ApplicationEvent} {last : ApplicationEvent}
      {projected : String × String → Option RunView} {s' : Store}
      (h : Appended sha t ty id expectedVersion drafts outbox inbox { s with idempotency } appended
        last projected s') : Effect sha s s'
  | deliver (deliveries : Deliveries) : Effect sha s { s with deliveries }
  | checkpoint (projectionCheckpoints : String × String → Option ProjectionCheckpoint) :
      Effect sha s { s with projectionCheckpoints }

theorem updateClaim_effect (claim : DeliveryClaim) (status : DeliveryStatus)
    (errorCode : Option String) (retryAt : Option Datetime) :
    Exec.Sat (updateClaim claim status errorCode retryAt) s (fun _ => Effect sha s)
      (fun _ s' => s' = s) := by
  refine (updateClaim_sat claim status errorCode retryAt s).mono ?_ (fun _ _ h => h.1)
  rintro _ s' ⟨record, -, -, rfl⟩
  exact Effect.deliver _

/-- **One operation has one effect**, and none when it raises. -/
theorem body_effect (hinv : LedgerInvariant sha s) (op : Op) :
    Exec.Sat (op.body sha) s (fun _ => Effect sha s) (fun _ s' => s' = s) := by
  cases op with
  | append t ty id v drafts outbox inbox =>
    refine Exec.Sat.call (append_sat sha t ty id v drafts outbox inbox s) (fun _ _ h => h) ?_
    rintro appended s' ⟨last, projected, h⟩
    exact Effect.append s.idempotency h
  | acceptRun identity request waitForSignal now =>
    refine Exec.Sat.call (acceptRun_sat hinv identity request waitForSignal now)
      (fun _ _ h => h) ?_
    rintro run s' (⟨-, rfl⟩ | ⟨traceRef, drafts, appended, last, projected, h⟩)
    · exact Effect.none
    · exact Effect.append _ h.append
  | acceptSignal identity command availableAt occurredAt =>
    refine Exec.Sat.call (acceptSignal_sat hinv identity command availableAt occurredAt)
      (fun _ _ h => h) ?_
    rintro run s' (⟨-, rfl⟩ | ⟨current, drafts, appended, last, projected, h⟩)
    · exact Effect.none
    · exact Effect.append s.idempotency h.append
  | recordTransition t runId eventType operationId actor request failureCode attributes now =>
    refine Exec.Sat.call (recordTransition_sat hinv t runId eventType operationId actor request
      failureCode attributes now) (fun _ _ h => h) ?_
    rintro run s' (rfl | ⟨current, draft, appended, last, projected, h⟩)
    · exact Effect.none
    · exact Effect.append s.idempotency h.append
  | replayLegacy t id actor correlation legacy upcast =>
    refine Exec.Sat.call (replayLegacy_sat sha t id actor correlation legacy upcast s)
      (fun _ _ h => h) ?_
    rintro appended s' ⟨drafts, last, projected, -, h⟩
    exact Effect.append s.idempotency h
  | claimOutbox t workerRef now claimUntil limit =>
    refine Exec.Sat.call (claimOutbox_sat sha t workerRef now claimUntil limit s)
      (fun _ _ h => h) ?_
    rintro claims s' ⟨-, -, hs'⟩
    rw [hs']; exact Effect.deliver _
  | completeOutbox claim =>
    have h : Exec.Sat (completeOutbox claim) s (fun _ => Effect sha s) (fun _ s' => s' = s) :=
      updateClaim_effect claim .delivered none none
    exact Exec.Sat.call h (fun _ _ h => h) (fun _ _ h => h)
  | failOutbox claim errorCode retryAt permanent =>
    have h : Exec.Sat (failOutbox claim errorCode retryAt permanent) s (fun _ => Effect sha s)
        (fun _ s' => s' = s) := updateClaim_effect claim _ (some errorCode) (some retryAt)
    exact Exec.Sat.call h (fun _ _ h => h) (fun _ _ h => h)
  | rebuildRunProjections t =>
    refine Exec.Sat.call (rebuildRunProjections_sat hinv t) (fun _ _ h => h) ?_
    rintro _ s' hs'
    rw [hs']; exact Effect.checkpoint _
  | rebuildRun t r =>
    refine Exec.Sat.call (rebuildRun_sat hinv t r) (fun _ _ h => h) ?_
    rintro _ s' rfl
    exact Effect.none

theorem step_effect (hinv : LedgerInvariant sha s) (op : Op) : Effect sha s (step sha s op).2 := by
  refine Exec.Sat.state ((body_effect hinv op).mono (fun _ _ h => h) ?_)
  rintro _ s' rfl
  exact Effect.none

/-- An operation that raises leaves the store it found. -/
theorem step_error (hinv : LedgerInvariant sha s) {op : Op} {error : Error}
    (h : (step sha s op).1 = .error error) : (step sha s op).2 = s :=
  (body_effect hinv op).error (Prod.ext h rfl)

theorem Effect.keeps {s' : Store} (hinv : LedgerInvariant sha s) (h : Effect sha s s') :
    LedgerInvariant sha s' := by
  cases h with
  | none => exact hinv
  | append idempotency h =>
    have hinv' : LedgerInvariant sha { s with idempotency } := hinv.congr rfl rfl rfl rfl rfl
    exact h.keeps hinv'
  | deliver deliveries => exact hinv.congr rfl rfl rfl rfl rfl
  | checkpoint checkpoints => exact hinv.congr rfl rfl rfl rfl rfl

theorem step_keeps (sha : Sha256) (s : Store) (op : Op) (hinv : LedgerInvariant sha s) :
    LedgerInvariant sha (step sha s op).2 :=
  (step_effect hinv op).keeps hinv

/-- Every reachable store satisfies the invariant. -/
theorem ledgerInvariant_run (sha : Sha256) (ops : List Op) : LedgerInvariant sha (run sha ops) :=
  Machine.run_invariant_all (step_keeps sha) _ (ledgerInvariant_empty sha) ops

/-! ## The laws of the ledger -/

/-- The six laws, in the terms of the tables. -/
structure LedgerLaws (sha : Sha256) (s : Store) : Prop where
  cursors : ∀ t, (s.events t).map (·.tenantCursor) = List.range' 1 (s.events t).length
  sequences : ∀ t key, (aggregateEvents (s.events t) key).map (·.aggregateSequence)
    = List.range' 1 (aggregateEvents (s.events t) key).length
  eventIds : ∀ t, ((s.events t).map (·.eventId.val)).Nodup
  hashes : ∀ t pre e post, s.events t = pre ++ e :: post → ∃ d, e.Records d ∧
    e.recordHash = sealOf sha e d (aggregateHeadOf pre e.aggregate).recordHash
      (tenantHeadOf pre).recordHash
  tenantHeads : ∀ t, s.tenantHeads t = (s.events t).getLast?.map (·.asTenantHead)
  aggregateHeads : ∀ t ty id, s.aggregateHeads (t, ty, id)
    = (aggregateEvents (s.events t) (ty, id)).getLast?.map (·.asAggregateHead)
  runs : ∀ t r, foldRun none (runEvents (s.events t) r) = .ok (s.runs (t, r))

theorem LedgerInvariant.laws (h : LedgerInvariant sha s) : LedgerLaws sha s where
  cursors t := (h.chain t).cursors
  sequences t key := (h.chain t).sequences key
  eventIds t := (h.chain t).eventIds_nodup
  hashes := by
    intro t pre e post hsplit
    obtain ⟨-, hext⟩ := h.chain t pre e post hsplit
    obtain ⟨d, hrec, hseal⟩ := hext.sealed
    rw [hext.aggregatePrevious, hext.tenantPrevious] at hseal
    exact ⟨d, hrec, hseal⟩
  tenantHeads := h.tenantHeads
  aggregateHeads := h.aggregateHeads
  runs := h.runs

/-- **The ledger invariant.**  After any sequence of operations the six laws hold, and neither
    rebuild, of any tenant or run, would change the runs. -/
theorem ledger_laws_hold (sha : Sha256) (ops : List Op) :
    LedgerLaws sha (run sha ops) ∧
    (∀ t, ((rebuildRunProjections t) (run sha ops)).2.runs = (run sha ops).runs) ∧
    ∀ t r, ((rebuildRun sha t r) (run sha ops)).2.runs = (run sha ops).runs := by
  have hinv := ledgerInvariant_run sha ops
  refine ⟨hinv.laws, fun t => ?_, fun t r => ?_⟩
  · refine Exec.Sat.state (I := fun s' : Store => s'.runs = (run sha ops).runs) ?_
    refine (rebuildRunProjections_sat hinv t).mono ?_ ?_
    · rintro _ s' hs'; rw [hs']
    · rintro _ s' rfl; rfl
  · refine Exec.Sat.state (I := fun s' : Store => s'.runs = (run sha ops).runs) ?_
    refine (rebuildRun_sat hinv t r).mono ?_ ?_
    · rintro _ s' rfl; rfl
    · rintro _ s' rfl; rfl

/-! ## Failed calls -/

/-- **A call that raises might as well not have been made.**  In every reachable store it leaves
    every table as it was, and whatever is called afterwards returns, raises and stores exactly what
    it would have without it. -/
theorem failed_call_never_happened (sha : Sha256) (ops : List Op) (op : Op) (error : Error)
    (h : (step sha (run sha ops) op).1 = .error error) :
    (step sha (run sha ops) op).2 = run sha ops ∧
    ∀ later : List Op, run sha (ops ++ op :: later) = run sha (ops ++ later) ∧
      ∃ rest, history sha (ops ++ later) = history sha ops ++ rest ∧
        history sha (ops ++ op :: later)
          = history sha ops ++ Machine.entry (step sha) (run sha ops) op :: rest := by
  have hsame : (step sha (run sha ops) op).2 = run sha ops :=
    step_error (ledgerInvariant_run sha ops) h
  refine ⟨hsame, fun later => ⟨?_, Machine.trace (step sha) (run sha ops) later, ?_, ?_⟩⟩
  · show Machine.final (step sha) Store.empty (ops ++ op :: later)
      = Machine.final (step sha) Store.empty (ops ++ later)
    rw [Machine.final_append, Machine.final_append]
    show Machine.final (step sha) (step sha (run sha ops) op).2 later = _
    rw [hsame]; rfl
  · exact Machine.trace_append _ ops later
  · show Machine.trace (step sha) Store.empty (ops ++ op :: later) = _
    rw [Machine.trace_append]
    show _ ++ Machine.entry (step sha) (run sha ops) op
      :: Machine.trace (step sha) (step sha (run sha ops) op).2 later = _
    rw [hsame]; rfl

/-- A batch whose second event the reducer rejects: a queued run cannot complete. -/
def rejectedBatch : List EventDraft :=
  [{ eventId := ⟨"e1", computed⟩, eventType := ⟨"investigation.requested", computed⟩,
     occurredAt := ⟨0, 0⟩, actorRef := ⟨"a", computed⟩, correlationRef := ⟨"c", computed⟩,
     causationRef := none, schemaVersion := 1,
     payload := Fields.of [("incident_id", .str "i"), ("request_ref", .str "q"),
       ("run_id", .str "r"), ("workflow_id", .str "w")],
     schema_ok := schema_one, payload_ok := by decide +kernel },
   { eventId := ⟨"e2", computed⟩, eventType := ⟨"investigation.completed", computed⟩,
     occurredAt := ⟨0, 0⟩, actorRef := ⟨"a", computed⟩, correlationRef := ⟨"c", computed⟩,
     causationRef := none, schemaVersion := 1, payload := ∅,
     schema_ok := schema_one, payload_ok := payload_empty }]

def rejectedOp : Op := .append "t" "investigation" "r" 0 rejectedBatch [] []

def correctedOp : Op := .append "t" "investigation" "r" 0 (rejectedBatch.take 1) [] []

/-- The batch is refused as a whole, and its first event can then be appended at version 0. -/
theorem failed_call_never_happened_batch :
    (step Sha256.constant (run Sha256.constant []) rejectedOp).2 = run Sha256.constant [] ∧
    run Sha256.constant [rejectedOp, correctedOp] = run Sha256.constant [correctedOp] ∧
    ((run Sha256.constant [correctedOp]).events "t").length = 1 := by
  have hfails : (step Sha256.constant (run Sha256.constant []) rejectedOp).1
      = .error ⟨.integrityFailure, "investigation event violates the state machine"⟩ := by rfl
  obtain ⟨hsame, hlater⟩ := failed_call_never_happened Sha256.constant [] rejectedOp _ hfails
  exact ⟨hsame, (hlater [correctedOp]).1, by decide +kernel⟩

end Durability

end Aegis
