/-
  WHAT A COMPENSATION UNDOES.

  `rollback` looks at the status of the plan and at nothing else: it is admitted at `FAILED`, whatever
  failed.  A dry run that fails leads there too, and so does an execution whose observation or whose
  preconditions kept it from the provider; then there is nothing to undo.  And no method reads
  `requires_fresh_approval`.

  The invariant of the runs in which compensations are in order (`Justified`): a plan has a status that
  only an outcome leads to ONLY AFTER the provider was asked to execute the action.  It is kept by every
  call but two, a preflight whose dry run fails and an execution that ends short of the provider, and
  these are what `Orderly` rules out.

  An approval is never requested after an outcome (`never_fresh`), so a compensation that requires a
  fresh approval never has one.
-/
import Mathlib
import Aegis.Remediation.Rollbacks

namespace Aegis

namespace Remediation

open Exec (Traced Path)

variable {sha : Sha256} {ports : Ports}

/-! ## What a compensation should undo -/

/-- The provider was asked to execute the action of the plan. -/
def Executed (s : State) (key : String × String) (actionId : String) : Prop :=
  ∃ intent, AdapterCall.execute intent ∈ s.calls ∧
    (intent.tenantId.val, intent.planId.val) = key ∧ intent.action.actionId.val = actionId

/-- The facts that say how an effect came out. -/
def outcomes : List RemediationFactType :=
  [.executionSucceeded, .executionFailed, .executionAmbiguous, .reconciliationResolved,
   .verificationFailed]

/-- An approval was requested after an outcome. -/
def FreshApproval (s : State) (key : String × String) : Prop :=
  ∃ before request after, s.facts key = before ++ request :: after ∧
    request.factType = .approvalRequested ∧ ∃ outcome ∈ before, outcome.factType ∈ outcomes

/-- The compensations of a call undo what was executed, under a fresh approval where one is required. -/
def Lawful (e : HistoryEntry) : Prop :=
  ∀ intent, Performs e (.compensate intent) →
    Executed e.before (intent.tenantId.val, intent.planId.val) intent.action.actionId.val ∧
    (intent.action.compensation.requiresFreshApproval = true →
      FreshApproval e.before (intent.tenantId.val, intent.planId.val))

/-! ## The condition -/

/-- The dry run of a preflight, the eighth question of the call, does not come out badly. -/
def DryRunSucceeds (ports : Ports) (s : State) : Prop :=
  ∀ intent receipt, ports.dryRun (s.tick + 7) intent = .ok receipt →
    receipt.outcome = .dryRunSucceeded

/-- The observation of a new execution, the tenth question of the call, lets the action of the plan
    through. -/
def LetsThrough (ports : Ports) (s : State) (key : String × String) (actionId : String) : Prop :=
  ∀ plan intent observed, s.plans key = some plan → intent.action ∈ plan.actions →
    intent.action.actionId.val = actionId → ports.observe (s.tick + 9) intent = .ok observed →
    (observed.state = .before ∨ observed.state = .notApplied) ∧
    ∀ condition ∈ intent.action.preconditions, conditionMatches condition observed.facts = true

/-- A claim of the operation for the action of the plan has no receipt yet. -/
def Unreceived (sha : Sha256) (s : State) (operation key : String × String) (actionId : String) : Prop :=
  ∀ c plan action, s.claims operation = some c → s.plans key = some plan → action ∈ plan.actions →
    action.actionId.val = actionId → c.actionDigest = action.digest sha →
    c.planDigest = plan.digest sha → c.receipt = none

/-- The calls for a plan before a rollback of one of its actions.  As long as the provider was not asked
    to execute the action, the dry runs succeed, and an execution is one of this action, is not
    answered by a receipt, and gets to the provider. -/
structure Orderly (sha : Sha256) (ports : Ports) (pre : List HistoryEntry) (key : String × String)
    (actionId : String) : Prop where
  preflight : ∀ e ∈ pre, ∀ identity request, e.op = .preflight identity request →
    (identity.tenantId.val, request.planId) = key → ¬Executed e.before key actionId →
    DryRunSucceeds ports e.before
  execute : ∀ e ∈ pre, ∀ identity request, e.op = .execute identity request →
    (identity.tenantId.val, request.planId) = key → ¬Executed e.before key actionId →
    request.actionId = actionId ∧ LetsThrough ports e.before key actionId ∧
      Unreceived sha e.before (identity.tenantId.val, request.operationId) key actionId

/-! ## The invariant -/

/-- The statuses that only an outcome leads to. -/
def settledStatuses : List RemediationStatus :=
  [.succeeded, .failed, .ambiguous, .reconciling, .rollingBack, .rolledBack, .verified,
   .verificationFailed, .escalated]

/-- The plan has such a status only after the provider was asked to execute the action. -/
def Justified (key : String × String) (actionId : String) (s : State) : Prop :=
  ∀ p, s.projections key = some p → p.status ∈ settledStatuses → Executed s key actionId

/-- An event keeps this, if what it records leads to such a status only after the provider was asked. -/
def Backed (key : String × String) (actionId : String) (t : State) : Event → Prop
  | .record key' _ _ _ p => key' = key → p.status ∈ settledStatuses → Executed t key actionId
  | _ => True

section Justified

variable {key : String × String} {actionId : String} {s t : State} {i : Event} {op : Op}

/-- The calls of the adapter only grow. -/
theorem path_calls {L : State → Event → Prop} (h : Path Event.apply L s t) :
    ∀ c ∈ s.calls, c ∈ t.calls := by
  refine h.relates (R := fun a b : State => ∀ c ∈ a.calls, c ∈ b.calls) (fun _ _ hc => hc)
    (fun _ _ _ hab hbc c hc => hbc c (hab c hc)) ?_
  intro t i _ c hc
  cases i with
  | call call => exact List.mem_append_left _ hc
  | _ => exact hc

theorem Executed.mono (h : Executed s key actionId) (hcalls : ∀ c ∈ s.calls, c ∈ t.calls) :
    Executed t key actionId := by
  obtain ⟨intent, hmem, hfits⟩ := h
  exact ⟨intent, hcalls _ hmem, hfits⟩

theorem Executed.path {L : State → Event → Prop} (h : Executed s key actionId)
    (hpath : Path Event.apply L s t) : Executed t key actionId := h.mono (path_calls hpath)

theorem Justified.apply (h : Justified key actionId t) (hi : Backed key actionId t i) :
    Justified key actionId (i.apply t) := by
  intro q hq hstatus
  cases i with
  | record key' command entry fact p =>
    have hq' : Function.update t.projections key' (some p) key = some q := hq
    by_cases hkey : key' = key
    · rw [← hkey, Function.update_self] at hq'
      rw [← Option.some.inj hq'] at hstatus
      exact (hi hkey hstatus).mono fun _ hc => hc
    · rw [Function.update_of_ne (Ne.symm hkey)] at hq'
      exact (h q hq' hstatus).mono fun _ hc => hc
  | call call => exact (h q hq hstatus).mono fun _ hc => List.mem_append_left _ hc
  | _ => exact (h q hq hstatus).mono fun _ hc => hc

theorem Justified.path (h : Justified key actionId s) (hpath : Path Event.apply (Backed key actionId) s t) :
    Justified key actionId t :=
  hpath.invariant (fun _ _ ht hi => ht.apply hi) h

/-- A recorded fact leads to its status. -/
theorem Recorded.status {factType : RemediationFactType} {commandId : String} {payload : Fields}
    {fact : RemediationFact} {p : RemediationProjection}
    (h : Recorded sha t key factType commandId payload fact p) :
    fact.factType = factType ∧ p.status = factType.status := by
  obtain ⟨actor, time, hbuilt⟩ := h.built
  obtain ⟨-, -, htype, -⟩ := buildFact_ok hbuilt
  refine ⟨htype, ?_⟩
  rw [(reduceRemediation_ok h.reduced).status, htype]

end Justified

/-! ## The calls that keep it anyway -/

section Others

variable {key : String × String} {actionId : String} {s t : State} {op : Op}

/-- The call is no preflight and no execution for the plan. -/
def Apart (op : Op) (key : String × String) : Prop :=
  ∀ identity request, op = .preflight identity request ∨ op = .execute identity request →
    (identity.tenantId.val, request.planId) ≠ key

/-- Other calls record an outcome only after one. -/
theorem records_justified {factType : RemediationFactType} {commandId : String} {payload : Fields}
    (hkeyed : ∀ key plan, s.plans key = some plan → plan.key = key) (h : Justified key actionId s)
    (hapart : Apart op key) (hrecords : Records sha ports s t op key factType commandId payload)
    (hstatus : factType.status ∈ settledStatuses) : Executed s key actionId := by
  have hscoped : ∀ {identity request statuses scope}, op.effect = some (identity, request, statuses) →
      InScope sha ports s op request scope → scope.plan.key = key →
      (∀ status ∈ statuses, status ∈ settledStatuses) → Executed s key actionId := by
    intro identity request statuses scope heffect hscope hkey hall
    obtain ⟨-, hprojection, hin⟩ := hscope.at hkeyed heffect
    rw [hkey] at hprojection
    exact h _ hprojection (hall _ hin)
  have hapart' : ∀ {identity request scope}, op = .preflight identity request ∨
      op = .execute identity request → InScope sha ports s op request scope → scope.plan.key = key →
      Executed s key actionId := by
    intro identity request scope hop hscope hkey
    have heffect : ∃ statuses, op.effect = some (identity, request, statuses) := by
      rcases hop with rfl | rfl
      · exact ⟨_, rfl⟩
      · exact ⟨_, rfl⟩
    obtain ⟨statuses, heffect⟩ := heffect
    obtain ⟨hplan, -⟩ := hscope.at hkeyed heffect
    exact absurd (hplan.symm.trans hkey) (hapart identity request hop)
  cases hrecords with
  | decision identity request approval plan decision hdecided =>
    unfold decisionFact at hstatus
    split at hstatus
    · exact absurd hstatus (by decide)
    · split at hstatus <;> exact absurd hstatus (by decide)
  | preflightFailed identity request scope receipt hscope => exact hapart' (.inl rfl) hscope rfl
  | executionResult identity request scope receipt factType hscope hfact =>
    exact hapart' (.inr rfl) hscope rfl
  | reconciliationStarted identity request scope hscope => exact hscoped rfl hscope rfl (by decide)
  | reconciliationResolved identity request scope receipt hscope =>
    exact hscoped rfl hscope rfl (by decide)
  | escalation identity request scope hscope => exact hscoped rfl hscope rfl (by decide)
  | verificationRequested identity request effectReceipt freshEvidence scope hscope =>
    exact hscoped rfl hscope rfl (by decide)
  | verificationResult identity request effectReceipt freshEvidence scope record hscope =>
    exact hscoped rfl hscope rfl (by decide)
  | rollbackRequested identity request scope hscope => exact hscoped rfl hscope rfl (by decide)
  | rollbackResult identity request scope receipt hscope => exact hscoped rfl hscope rfl (by decide)
  | _ => exact absurd hstatus (by decide)

theorem justified_apart (hkeyed : ∀ key plan, s.plans key = some plan → plan.key = key)
    (h : Justified key actionId s) (hapart : Apart op key) :
    Justified key actionId (step sha ports s op).2 := by
  refine ((step_path sha ports s op).invariant
    (I := fun t => (∀ c ∈ s.calls, c ∈ t.calls) ∧ Justified key actionId t) ?_ ⟨fun _ hc => hc, h⟩).2
  rintro t i ⟨hcalls, hjustified⟩ hi
  refine ⟨fun c hc => path_calls (.single (L := fun _ _ => True) i trivial) c (hcalls c hc),
    hjustified.apply ?_⟩
  cases hi with
  | record key' factType commandId payload fact p hrecords hrecorded =>
    rintro rfl hstatus
    rw [hrecorded.status.2] at hstatus
    exact (records_justified hkeyed h hapart hrecords hstatus).mono hcalls
  | _ => trivial

end Others

/-! ## A preflight and an execution -/

section Walks

variable {key : String × String} {actionId : String} {s t : State} {op : Op}
  {identity : IdentityContext} {request : EffectRequest}

/-- What an intent says of the call that asks for it. -/
structure Names (sha : Sha256) (s : State) (key : String × String) (request : EffectRequest)
    (intent : ActionIntent) : Prop where
  planKey : (intent.tenantId.val, intent.planId.val) = key
  action : intent.action.actionId.val = request.actionId
  operation : intent.operationId.val = request.operationId
  plan : ∃ plan, s.plans key = some plan ∧ intent.planDigest = plan.digest sha ∧
    intent.action ∈ plan.actions

theorem buildIntent_operation {scope : EffectScope} {dryRun : Bool} {time : Datetime}
    {intent : ActionIntent} (h : buildIntent sha scope request dryRun time = .ok intent) :
    intent.operationId.val = request.operationId := by
  unfold buildIntent at h
  split at h
  · cases h
  · obtain ⟨operationId, hparse, h⟩ := except_bind_ok.mp h
    split at h
    · rw [← Except.ok.inj h]
      exact Identifier.parse_ok hparse
    · cases h

theorem Intended.names {statuses : List RemediationStatus} {intent : ActionIntent}
    (hkeyed : ∀ key plan, s.plans key = some plan → plan.key = key)
    (heffect : op.effect = some (identity, request, statuses)) (h : Intended sha ports s op intent) :
    Names sha s (identity.tenantId.val, request.planId) request intent := by
  obtain ⟨request', scope, dryRun, time, ⟨identity', statuses', heffect', hscope⟩, hbuilt⟩ := h
  rw [heffect] at heffect'
  simp only [Option.some.injEq, Prod.mk.injEq] at heffect'
  obtain ⟨rfl, rfl, rfl⟩ := heffect'
  obtain ⟨htenant, hplan, hdigest, haction, hid⟩ := buildIntent_ok hbuilt
  have hkey := hkeyed _ _ hscope.plan
  refine ⟨?_, hid, buildIntent_operation hbuilt, scope.plan, hscope.plan, hdigest, haction⟩
  rw [htenant, hplan]
  exact hkey

/-- The events of a check: questions, and the reservation of quota. -/
def Asking : Event → Prop
  | .tick => True
  | .quota _ _ _ => True
  | _ => False

/-- The scope of an effect, with what its check leaves alone. -/
theorem validatedScope_backed {statuses : List RemediationStatus}
    (heffect : op.effect = some (identity, request, statuses)) :
    Traced Event.apply (Backed key actionId)
      (validatedScope sha ports identity request.planId request.actionId statuses) s
      (fun scope t => InScope sha ports s op request scope ∧ t.tick = s.tick + 5 ∧
        t.claims = s.claims) := by
  have hasking : Traced Event.apply (fun _ i => Asking i)
      (validatedScope sha ports identity request.planId request.actionId statuses) s
      (fun scope t => InScope sha ports s op request scope ∧ t.tick = s.tick + 5) :=
    validatedScope_along (fun _ => trivial) (fun _ _ _ _ _ => trivial) heffect
  have hbacked : ∀ (t : State) i, Asking i → Backed key actionId t i := by
    intro t i hi
    cases i with
    | tick => trivial
    | quota => trivial
    | _ => exact hi.elim
  refine (hasking.via.mono_events hbacked).weaken ?_
  rintro scope t ⟨hpath, hscope, htick⟩
  refine ⟨hscope, htick, ?_⟩
  refine hpath.relates (R := fun a b : State => b.claims = a.claims) (fun _ => rfl)
    (fun _ _ _ hab hbc => hbc.trans hab) ?_
  intro t i hi
  cases i with
  | tick => rfl
  | quota => rfl
  | _ => exact hi.elim

/-- A fact is recorded that needs no justification, or has one. -/
theorem appendNow_backed {plan : RemediationPlan} {expectedVersion : Int}
    {factType : RemediationFactType} {commandId : String} {actor : Identifier} {payload : Fields}
    (h : factType.status ∈ settledStatuses → Executed t key actionId) :
    Traced Event.apply (Backed key actionId)
      (appendNow sha ports plan expectedVersion factType commandId actor payload) t
      (fun _ t' => t'.tick = t.tick + 1 ∧ t'.claims = t.claims) := by
  refine Traced.weaken (appendNow_traced (fun _ => trivial) ?_) ?_
  · intro fact p hrecorded _ hstatus
    rw [hrecorded.status.2] at hstatus
    exact (h hstatus).mono fun _ hc => hc
  · rintro p t' happended
    cases happended with
    | replayed => exact ⟨rfl, rfl⟩
    | recorded => exact ⟨rfl, rfl⟩

/-- A preflight whose dry run succeeds records no outcome. -/
theorem preflight_backed (hsucceeds : DryRunSucceeds ports s) :
    Traced Event.apply (Backed key actionId) (preflight sha ports identity request) s
      (fun _ _ => True) := by
  have heffect : (Op.preflight identity request).effect =
    some (identity, request, [.approved, .preflight]) := rfl
  refine Traced.bind (validatedScope_backed heffect) ?_
  rintro scope t₁ ⟨hscope, htick₁, -⟩
  refine Traced.bind (effectIntent_traced (fun _ => trivial) hscope) ?_
  rintro intent t₂ ⟨-, rfl⟩
  refine Traced.bind (appendNow_backed fun h => absurd h (by decide)) ?_
  rintro started t₃ ⟨htick₃, -⟩
  refine Traced.bind (callAdapter_traced trivial) ?_
  rintro receipt t₄ ⟨hreceipt, rfl⟩
  have htick : t₃.tick = s.tick + 7 := by
    have hadvance : (t₁.advance 1).tick = t₁.tick + 1 := rfl
    omega
  have houtcome : receipt.outcome = .dryRunSucceeded := by
    rw [htick] at hreceipt
    exact hsucceeds intent receipt hreceipt
  rw [if_neg fun h => h houtcome]
  refine Traced.bind (appendNow_backed fun h => absurd h (by decide)) fun _ _ _ => ?_
  exact Traced.ret trivial

/-- An attempt that is let through asks the provider. -/
theorem attemptEffect_backed {intent : ActionIntent} (htick : t.tick = s.tick + 9)
    (hthrough : LetsThrough ports s key actionId) (hnames : Names sha s key request intent)
    (haction : request.actionId = actionId) :
    Traced Event.apply (Backed key actionId) (attemptEffect ports intent) t
      (fun _ t' => Executed t' key actionId) := by
  obtain ⟨plan, hplan, -, hmem⟩ := hnames.plan
  have hid := hnames.action.trans haction
  refine Traced.bind (callAdapter_traced trivial) ?_
  rintro before t₁ ⟨hobserved, rfl⟩
  rw [htick] at hobserved
  obtain ⟨hstate, hconditions⟩ := hthrough plan intent before hplan hmem hid hobserved
  have hunapplied : before.state ≠ .applied := by
    intro h
    rcases hstate with hbefore | hbefore <;> rw [h] at hbefore <;> cases hbefore
  rw [if_neg hunapplied, if_neg fun h => hstate.elim h.1 h.2, if_neg fun h => h hconditions]
  refine Traced.weaken (callAdapter_traced trivial) ?_
  rintro receipt t₂ ⟨-, rfl⟩
  exact ⟨intent, List.mem_append_right _ List.mem_cons_self, hnames.planKey, hid⟩

/-- An execution that gets to the provider records an outcome only after it. -/
theorem execute_backed (hkeyed : ∀ key plan, s.plans key = some plan → plan.key = key)
    (hkey : (identity.tenantId.val, request.planId) = key) (haction : request.actionId = actionId)
    (hthrough : LetsThrough ports s key actionId)
    (hunreceived : Unreceived sha s (identity.tenantId.val, request.operationId) key actionId) :
    Traced Event.apply (Backed key actionId) (executeAction sha ports identity request) s
      (fun _ _ => True) := by
  have heffect : (Op.execute identity request).effect =
    some (identity, request, [.preflight, .executing, .succeeded]) := rfl
  refine Traced.bind (validatedScope_backed heffect) ?_
  rintro scope t₁ ⟨hscope, htick₁, hclaims₁⟩
  refine Traced.bind (effectIntent_traced (fun _ => trivial) hscope) ?_
  rintro intent t₂ ⟨hintended, rfl⟩
  have hnames := hintended.names hkeyed heffect
  rw [hkey] at hnames
  refine Traced.bind (appendNow_backed fun h => absurd h (by decide)) ?_
  rintro requested t₃ ⟨htick₃, hclaims₃⟩
  refine Traced.bind (claimIntent_traced (fun _ => trivial) fun _ _ _ => trivial) ?_
  rintro claim t₄ ⟨htick₄, hreceipt⟩
  have hnone : claim.receipt = none := by
    cases hclaim : claim.receipt with
    | none => rfl
    | some receipt =>
      obtain ⟨c, hc, hsettled, hbinding⟩ := hreceipt receipt hclaim
      obtain ⟨plan, hplan, hdigest, hmem⟩ := hnames.plan
      have htenant : intent.tenantId.val = identity.tenantId.val :=
        (Prod.mk.inj (hnames.planKey.trans hkey.symm)).1
      have hclaims : t₃.claims = s.claims := hclaims₃.trans hclaims₁
      rw [hclaims, htenant, hnames.operation] at hc
      have hdigests : c.actionDigest = intent.action.digest sha ∧ c.planDigest = intent.planDigest :=
        ⟨congrArg Prod.fst hbinding, congrArg (fun b => b.2.1) hbinding⟩
      have hopen := hunreceived c plan intent.action hc hplan hmem (hnames.action.trans haction)
        hdigests.1 (hdigests.2.trans hdigest)
      rw [hopen] at hsettled
      cases hsettled
  refine Traced.bind (P := fun _ t' => Executed t' key actionId) ?_ ?_
  · unfold executionReceipt
    rw [hnone]
    refine Traced.bind (appendNow_backed fun h => absurd h (by decide)) ?_
    rintro started t₅ ⟨htick₅, -⟩
    have htick : t₅.tick = s.tick + 9 := by
      have hadvance : (t₁.advance 1).tick = t₁.tick + 1 := rfl
      omega
    refine Traced.bind (attemptEffect_backed htick hthrough hnames haction) ?_
    intro receipt t₆ hexecuted
    refine Traced.bind (completeIntent_traced (fun _ => trivial) fun _ _ _ => trivial).via ?_
    rintro - t₇ ⟨hpath, -⟩
    exact Traced.ret (hexecuted.path hpath)
  · rintro ⟨receipt, resultVersion⟩ t₅ hexecuted
    dsimp only
    cases executionFact receipt.outcome with
    | none => exact Traced.raised _
    | some factType =>
      refine Traced.bind (appendNow_backed fun _ => hexecuted) fun _ _ _ => ?_
      exact Traced.check fun _ => Traced.check fun _ => Traced.ret trivial

end Walks

/-! ## Whole runs -/

section Runs

variable {key : String × String} {actionId : String} {s : State}

/-- **One call.**  In order, it keeps the invariant. -/
theorem justified_step {op : Op} (hkeyed : ∀ key plan, s.plans key = some plan → plan.key = key)
    (h : Justified key actionId s)
    (horderly : Orderly sha ports [Machine.entry (step sha ports) s op] key actionId) :
    Justified key actionId (step sha ports s op).2 := by
  by_cases hapart : Apart op key
  · exact justified_apart hkeyed h hapart
  · unfold Apart at hapart
    push Not at hapart
    obtain ⟨identity, request, hop, hkey⟩ := hapart
    by_cases hexecuted : Executed s key actionId
    · exact fun _ _ _ => hexecuted.path (step_path sha ports s op)
    · rcases hop with rfl | rfl
      · have hsucceeds := horderly.preflight _ List.mem_cons_self identity request rfl hkey hexecuted
        have hbody : Traced Event.apply (Backed key actionId)
            ((Op.preflight identity request).body sha ports) s (fun _ _ => True) :=
          (preflight_backed hsucceeds).bind fun _ _ _ => Traced.ret trivial
        exact h.path hbody.path
      · obtain ⟨haction, hthrough, hunreceived⟩ :=
          horderly.execute _ List.mem_cons_self identity request rfl hkey hexecuted
        have hbody : Traced Event.apply (Backed key actionId)
            ((Op.execute identity request).body sha ports) s (fun _ _ => True) :=
          (execute_backed hkeyed hkey haction hthrough hunreceived).bind fun _ _ _ => Traced.ret trivial
        exact h.path hbody.path

theorem Orderly.mono {pre pre' : List HistoryEntry} (h : Orderly sha ports pre key actionId)
    (hsub : ∀ e ∈ pre', e ∈ pre) : Orderly sha ports pre' key actionId :=
  ⟨fun e he => h.preflight e (hsub e he), fun e he => h.execute e (hsub e he)⟩

/-- **The invariant of whole runs.** -/
theorem justified_run (policies : List ActionPolicy) (limits : String → Int) (ops : List Op) :
    Orderly sha ports (history sha ports (State.start policies limits) ops) key actionId →
    Justified key actionId (run sha ports (State.start policies limits) ops) := by
  have hinv := @Machine.history_induction _ _ _ (step sha ports)
    (fun pre t => (∀ key plan, t.plans key = some plan → plan.key = key) ∧
      (Orderly sha ports pre key actionId → Justified key actionId t))
    (State.start policies limits) ?_ ?_ ops
  · exact hinv.2
  · refine ⟨fun _ _ hplan => ?_, fun _ _ hp => ?_⟩
    · cases hplan
    · cases hp
  · rintro pre t op ⟨hkeyed, hjustified⟩
    refine ⟨keyed_step hkeyed op, fun horderly => ?_⟩
    refine justified_step hkeyed (hjustified (horderly.mono fun e he => List.mem_append_left _ he)) ?_
    exact horderly.mono fun e he => List.mem_append_right _ he

end Runs

/-! ## No approval is requested after an outcome -/

/-- An outcome leaves the plan settled, and no approval is requested from there. -/
structure Closed (s : State) (key : String × String) : Prop where
  settled : ∀ fact ∈ s.facts key, fact.factType ∈ outcomes →
    ∃ p, s.projections key = some p ∧ p.status ∈ settledStatuses
  stale : ¬FreshApproval s key

section Closed

variable {key : String × String} {s t : State}

theorem settled_next : ∀ status ∈ settledStatuses, ∀ next ∈ allowed status, next ∈ settledStatuses := by
  decide

theorem outcome_settled : ∀ factType ∈ outcomes, factType.status ∈ settledStatuses := by decide

theorem Closed.record (h : Closed t key) {factType : RemediationFactType} {commandId : String}
    {payload : Fields} {fact : RemediationFact} {p : RemediationProjection}
    (hrecorded : Recorded sha t key factType commandId payload fact p) (command : String × String)
    (entry : String × Digest) : Closed (t.record key command entry fact p) key := by
  obtain ⟨htype, hstatus⟩ := hrecorded.status
  have hreduced := reduceRemediation_ok hrecorded.reduced
  have hfacts : (t.record key command entry fact p).facts key = t.facts key ++ [fact] :=
    Function.update_self _ _ _
  -- after an outcome the new status is settled
  have hafter : (∃ outcome ∈ t.facts key, outcome.factType ∈ outcomes) →
      p.status ∈ settledStatuses := by
    rintro ⟨outcome, hmem, houtcome⟩
    obtain ⟨q, hq, hsettled⟩ := h.settled outcome hmem houtcome
    obtain ⟨-, -, -, hallowed⟩ := hreduced.next q hq
    rw [hstatus, ← htype]
    exact settled_next q.status hsettled _ hallowed
  constructor
  · intro outcome hmem houtcome
    refine ⟨p, Function.update_self _ _ _, ?_⟩
    rw [hfacts] at hmem
    rcases List.mem_append.mp hmem with hmem | hmem
    · exact hafter ⟨outcome, hmem, houtcome⟩
    · rw [List.mem_singleton.mp hmem, htype] at houtcome
      rw [hstatus]
      exact outcome_settled factType houtcome
  · rintro ⟨before, request, after, hsplit, hrequest, houtcome⟩
    rw [hfacts] at hsplit
    rcases Threads.append_split hsplit with ⟨rfl, rfl⟩ | ⟨after', hold⟩
    · have hsettled := hafter houtcome
      rw [hstatus, ← htype, hrequest] at hsettled
      exact absurd hsettled (by decide)
    · exact h.stale ⟨before, request, after', hold, hrequest, houtcome⟩

theorem closed_step (h : Closed s key) (op : Op) : Closed (step sha ports s op).2 key := by
  refine (step_path sha ports s op).invariant (I := fun t => Closed t key) ?_ h
  intro t i ht hi
  cases hi with
  | record key' factType commandId payload fact p hrecords hrecorded =>
    by_cases hkey : key = key'
    · subst hkey
      exact ht.record hrecorded _ _
    · have hfacts : (Event.apply (.record key' (key'.1, commandId)
          (key'.2, commandFingerprint sha factType payload) fact p) t).facts key = t.facts key :=
        Function.update_of_ne hkey _ _
      have hprojections : (Event.apply (.record key' (key'.1, commandId)
          (key'.2, commandFingerprint sha factType payload) fact p) t).projections key =
            t.projections key := Function.update_of_ne hkey _ _
      refine ⟨?_, ?_⟩
      · rw [hfacts, hprojections]
        exact ht.settled
      · unfold FreshApproval
        rw [hfacts]
        exact ht.stale
  | _ => exact ⟨ht.settled, ht.stale⟩

/-- **No approval is requested after an outcome**, in any run. -/
theorem never_fresh (policies : List ActionPolicy) (limits : String → Int) (ops : List Op)
    (key : String × String) :
    ¬FreshApproval (run sha ports (State.start policies limits) ops) key := by
  refine (Machine.run_invariant_all (I := fun t => Closed t key) (fun t op ht => closed_step ht op)
    (State.start policies limits) ⟨?_, ?_⟩ ops).stale
  · intro fact hmem
    exact absurd hmem List.not_mem_nil
  · rintro ⟨before, request, after, hsplit, -⟩
    exact absurd hsplit.symm (List.append_ne_nil_of_right_ne_nil _ (List.cons_ne_nil _ _))

end Closed

/-! ## The law -/

/-- Only a rollback of a settled plan compensates. -/
theorem compensates_settled {s : State} {op : Op} {intent : ActionIntent}
    (hkeyed : ∀ key plan, s.plans key = some plan → plan.key = key)
    (h : Performs (Machine.entry (step sha ports) s op) (.compensate intent)) :
    ∃ identity request, op = .rollback identity request ∧
      Names sha s (identity.tenantId.val, request.planId) request intent ∧
      ∃ p, s.projections (identity.tenantId.val, request.planId) = some p ∧
        p.status ∈ settledStatuses := by
  obtain ⟨hmay, hintended⟩ := performs_intended h
  cases op with
  | rollback identity request =>
    have heffect : (Op.rollback identity request).effect = some (identity, request,
        [.failed, .succeeded, .verificationFailed, .rolledBack]) := rfl
    refine ⟨identity, request, rfl, hintended.names hkeyed heffect, ?_⟩
    obtain ⟨request', scope, -, -, ⟨identity', statuses', heffect', hscope⟩, -⟩ := hintended
    simp only [Op.effect, Option.some.injEq, Prod.mk.injEq] at heffect'
    obtain ⟨rfl, rfl, rfl⟩ := heffect'
    have hsettled : ∀ status ∈ [RemediationStatus.failed, .succeeded, .verificationFailed, .rolledBack],
        status ∈ settledStatuses := by decide
    exact ⟨scope.projection, hscope.projection, hsettled _ hscope.status⟩
  | _ => exact hmay.elim

/-- **What a compensation undoes**, in any run and at any call.  If the calls before a rollback were in
    order for the plan, everything the call compensates was executed; and it is lawful exactly if
    nothing of it requires a fresh approval. -/
theorem compensation_lawful_iff (sha : Sha256) (ports : Ports) (policies : List ActionPolicy)
    (limits : String → Int) (ops : List Op) (pre post : List HistoryEntry) (e : HistoryEntry)
    (hsplit : history sha ports (State.start policies limits) ops = pre ++ e :: post)
    (horderly : ∀ identity request, e.op = .rollback identity request →
      Orderly sha ports pre (identity.tenantId.val, request.planId) request.actionId) :
    Lawful e ↔ ∀ intent, Performs e (.compensate intent) →
      intent.action.compensation.requiresFreshApproval = false := by
  obtain ⟨xs, hpre, hbefore, he⟩ := history_split hsplit
  have hstale : ∀ key, ¬FreshApproval e.before key := by
    rw [hbefore]
    exact never_fresh policies limits xs
  constructor
  · intro h intent hperforms
    obtain ⟨-, hfresh⟩ := h intent hperforms
    cases hrequires : intent.action.compensation.requiresFreshApproval with
    | false => rfl
    | true => exact absurd (hfresh hrequires) (hstale _)
  · intro h intent hperforms
    have hrequires := h intent hperforms
    have hkeyed : ∀ key plan, e.before.plans key = some plan → plan.key = key := by
      rw [hbefore]
      exact fun key plan hplan => (plans_proposed policies limits xs key plan hplan).1
    rw [he] at hperforms
    obtain ⟨identity, request, hop, hnames, p, hp, hsettled⟩ := compensates_settled hkeyed hperforms
    have hjustified : Justified (identity.tenantId.val, request.planId) request.actionId e.before := by
      rw [hbefore]
      exact justified_run policies limits xs (hpre ▸ horderly identity request hop)
    refine ⟨?_, fun htrue => ?_⟩
    · rw [hnames.planKey, hnames.action]
      exact hjustified p hp hsettled
    · rw [hrequires] at htrue
      cases htrue

/-! ## Worked cases -/

/-- What a call asks the adapter comes after what was asked before. -/
theorem performs_dropped {s : State} {op : Op} {call : AdapterCall}
    (h : call ∈ (step sha ports s op).2.calls.drop s.calls.length) :
    Performs (Machine.entry (step sha ports) s op) call := by
  obtain ⟨new, hnew, -⟩ := step_calls sha ports s op
  rw [hnew, List.drop_left] at h
  exact ⟨new, hnew, h⟩

def AdapterCall.compensation : AdapterCall → Option ActionIntent
  | .compensate intent => some intent
  | _ => none

/-- The compensations a call asks for. -/
def compensations (sha : Sha256) (ports : Ports) (s : State) (op : Op) : List ActionIntent :=
  ((step sha ports s op).2.calls.drop s.calls.length).filterMap AdapterCall.compensation

theorem performs_compensations {s : State} {op : Op} {intent : ActionIntent}
    (h : intent ∈ compensations sha ports s op) :
    Performs (Machine.entry (step sha ports) s op) (.compensate intent) := by
  obtain ⟨call, hcall, hintent⟩ := List.mem_filterMap.mp h
  cases call with
  | compensate intent' =>
    rw [← Option.some.inj hintent]
    exact performs_dropped hcall
  | _ => cases hintent

/-- The rollback of the case. -/
def undoOp (expectedVersion : Int) : Op :=
  .rollback (sampleIdentity "x") (sampleRequest "a" "o3" expectedVersion)

def undoEntry : HistoryEntry := Machine.entry (step .constant (soloPorts 30)) undoState (undoOp 9)

/-- The calls before it are in order. -/
theorem undo_orderly : Orderly .constant (soloPorts 30)
    (history .constant (soloPorts 30) (State.start [longPolicy] fun _ => 2)
      (sampleApproval soloPlan "y" ++ [.preflight (sampleIdentity "x") (sampleRequest "a" "o1" 4),
        .execute (sampleIdentity "x") (sampleRequest "a" "o2" 6)])) ("t", "p") "a" := by
  have hplan : soloState.plans ("t", "p") = some soloPlan ∧ soloState.tick + 9 < 30 := by
    decide +kernel
  have hunclaimed : (soloState.claims ("t", "o2")).isNone = true := by decide +kernel
  constructor
  · intro e _ identity request _ _ _ intent receipt hreceipt
    rw [← Except.ok.inj hreceipt]
    rfl
  · intro e he identity request hop hkey _
    simp only [history, sampleApproval, List.cons_append, List.nil_append, Machine.trace,
      List.mem_cons, List.not_mem_nil, or_false] at he
    rcases he with rfl | rfl | rfl | rfl | rfl
    · cases hop
    · cases hop
    · cases hop
    · cases hop
    · cases hop
      refine ⟨rfl, ?_, ?_⟩
      · intro plan intent observed hstored hmem _ hobserved
        have hsame : plan = soloPlan := (Option.some.inj (hstored.symm.trans hplan.1))
        rw [hsame] at hmem
        rw [List.mem_singleton.mp hmem]
        have hstate : observed.state = .before ∧
            observed.facts = AList.singleton "phase" (.str "ready") := by
          rw [← Except.ok.inj hobserved]
          refine ⟨?_, rfl⟩
          show (if soloState.tick + 9 < 30 then ObservationState.before else .applied) = .before
          exact if_pos hplan.2
        rw [hstate.2]
        exact ⟨.inl hstate.1, by decide +kernel⟩
      · intro c plan action hc
        have hnone : soloState.claims ("t", "o2") = none := Option.isNone_iff_eq_none.mp hunclaimed
        have hboth : none = some c := hnone.symm.trans hc
        cases hboth

/-- The worked case: the action is executed, then compensated, and no fresh approval is required. -/
theorem compensation_lawful_sample :
    (∃ intent, Performs undoEntry (.compensate intent)) ∧ Lawful undoEntry := by
  have hsome : ∃ intent ∈ compensations .constant (soloPorts 30) undoState (undoOp 9),
      intent.action.actionId.val = "a" := by decide +kernel
  have hplan : undoState.plans ("t", "p") = some soloPlan := by decide +kernel
  have hsplit : history .constant (soloPorts 30) (State.start [longPolicy] fun _ => 2)
      ((sampleApproval soloPlan "y" ++ [.preflight (sampleIdentity "x") (sampleRequest "a" "o1" 4),
        .execute (sampleIdentity "x") (sampleRequest "a" "o2" 6)]) ++ [undoOp 9]) = _ ++ undoEntry :: [] :=
    Machine.trace_concat _ _ _
  constructor
  · obtain ⟨intent, hmem, -⟩ := hsome
    exact ⟨intent, performs_compensations hmem⟩
  · refine (compensation_lawful_iff _ _ _ _ _ _ _ _ hsplit ?_).mpr ?_
    · intro identity request hop
      cases hop
      exact undo_orderly
    · intro intent hperforms
      obtain ⟨identity, request, hop, hnames, -⟩ := compensates_settled
        (fun key plan hplan => (plans_proposed _ _ _ key plan hplan).1) hperforms
      cases hop
      obtain ⟨plan, hstored, -, hmem⟩ := hnames.plan
      have hsame : plan = soloPlan := Option.some.inj (hstored.symm.trans hplan)
      rw [hsame] at hmem
      rw [List.mem_singleton.mp hmem]
      rfl

/-- A provider whose dry runs fail. -/
def failingPorts : Ports :=
  { soloPorts 30 with dryRun := fun _ intent => .ok (sampleReceipt intent .failed) }

/-- The dry run of the plan has failed; nothing else was asked of the provider. -/
def failedState : State :=
  run .constant failingPorts (State.start [longPolicy] fun _ => 2)
    (sampleApproval soloPlan "y" ++ [.preflight (sampleIdentity "x") (sampleRequest "a" "o1" 4)])

/-- The plan, with an action whose compensation requires a fresh approval. -/
def freshPlan : RemediationPlan :=
  { soloPlan with
    actions := [{ soloAction with compensation := ⟨true, .observeOnly, none, true, observes_unbound, enabled_observes⟩ }],
    actions_ok := by decide, ids_unique := by decide, target_ok := by decide, risk_ok := by decide }

/-- Its action is executed, under the one approval. -/
def freshState : State :=
  run .constant (soloPorts 30) (State.start [longPolicy] fun _ => 2)
    (sampleApproval freshPlan "y" ++ [.preflight (sampleIdentity "x") (sampleRequest "a" "o1" 4),
      .execute (sampleIdentity "x") (sampleRequest "a" "o2" 6)])

/-- **What the code allows.**  After a failed dry run the rollback compensates an action that was never
    executed; and after an execution it compensates under the old approval where a fresh one is
    required. -/
theorem compensation_unlawful :
    ¬Lawful (Machine.entry (step .constant failingPorts) failedState (undoOp 6)) ∧
    ¬Lawful (Machine.entry (step .constant (soloPorts 30)) freshState (undoOp 9)) := by
  constructor
  · intro h
    have hcase : (∃ intent ∈ compensations .constant failingPorts failedState (undoOp 6),
        intent.action.actionId.val = "a") ∧ failedState.calls.all (fun c => !c.isExecute) = true := by
      decide +kernel
    obtain ⟨⟨intent, hmem, -⟩, hnone⟩ := hcase
    obtain ⟨⟨executed, hcall, -⟩, -⟩ := h intent (performs_compensations hmem)
    have hexecuted := List.all_eq_true.mp hnone _ hcall
    cases hexecuted
  · intro h
    have hcase : ∃ intent ∈ compensations .constant (soloPorts 30) freshState (undoOp 9),
        intent.action.compensation.requiresFreshApproval = true := by decide +kernel
    obtain ⟨intent, hmem, hrequires⟩ := hcase
    exact never_fresh _ _ _ _ ((h intent (performs_compensations hmem)).2 hrequires)

end Remediation

end Aegis
