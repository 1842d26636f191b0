/-
  DRY RUNS AND EXECUTIONS.

  An execution is permitted by the STATUS of the plan.  `preflight` is one status for the intent of a dry
  run and for its success, and for all actions of the plan; so an execution of an action needs no dry
  run of it: a dry run that raises leaves the status behind, and so does a dry run of another action.

  What holds is `dry_run_first`: if every preflight that records its intent also records a result, and an
  action is executed only when a preflight of it was recorded, then a successful dry run of the same
  action is in the ledger.  The invariant says of every recorded preflight that its dry run succeeded or
  that the plan is in the dead end, where no execution is permitted.
-/
import Mathlib
import Aegis.Remediation.Ledger
import Aegis.Remediation.Quorum

namespace Aegis

namespace Remediation

open Exec (Path Sat)

variable {sha : Sha256} {ports : Ports}

/-! ## The law -/

/-- The ledger of the plan holds the intent of a dry run of the action. -/
def Preflighted (s : State) (key : String × String) (actionId : String) : Prop :=
  ∃ fact ∈ s.facts key, fact.factType = .preflightRequested ∧
    fact.payload.lookup "action_id" = some (.str actionId)

/-- The ledger of the plan holds a successful dry run that a preflight of the action produced. -/
def DryRan (h : List HistoryEntry) (s : State) (key : String × String) (actionId : String) : Prop :=
  ∃ fact ∈ s.facts key, fact.factType = .dryRunSucceeded ∧
    ∃ e ∈ h, Adds e key fact ∧ ∃ identity request, e.op = .preflight identity request ∧
      key = (identity.tenantId.val, request.planId) ∧ request.actionId = actionId

/-- Every execution of an action is preceded by a successful dry run of it. -/
def DryRunFirst (sha : Sha256) (ports : Ports) (start : State) (ops : List Op) : Prop :=
  ∀ pre e post intent, history sha ports start ops = pre ++ e :: post →
    Performs e (.execute intent) →
      DryRan pre e.before (intent.tenantId.val, intent.planId.val) intent.action.actionId.val

/-- What is asked of a call: a preflight with a new operation gets an answer to its dry run and has room
    for its result; an action is executed after a preflight of it was recorded. -/
structure Answered (ports : Ports) (e : HistoryEntry) : Prop where
  preflight : ∀ identity request, e.op = .preflight identity request →
    e.before.commands (identity.tenantId.val, request.operationId ++ ":intent") = none →
      (∀ n intent, e.before.tick ≤ n → n < e.after.tick →
        ∃ receipt, ports.dryRun n intent = .ok receipt) ∧
      e.before.commands (identity.tenantId.val, request.operationId ++ ":result") = none ∧
      (e.before.facts (identity.tenantId.val, request.planId)).length + 2 ≤ maxFacts
  execute : ∀ identity request, e.op = .execute identity request →
    Preflighted e.before (identity.tenantId.val, request.planId) request.actionId

/-! ## Appending -/

section Append

variable {t : State} {tenantId planId : String} {expectedVersion : Int}
  {factType : RemediationFactType} {commandId actor : String} {time : Datetime} {payload : Fields}

/-- An append that raises changes nothing. -/
theorem append_sat :
    Sat (append sha tenantId planId expectedVersion factType commandId actor time payload) t
      (fun p t' => Appended sha t (tenantId, planId) factType commandId payload p t')
      (fun _ t' => t' = t) := by
  show Sat (Exec.read >>= _) t _ _
  rw [Exec.sat_bind, Exec.sat_read]
  dsimp only
  cases hknown : t.commands (tenantId, commandId) with
  | some existing =>
    refine Sat.check (fun _ => rfl) (fun _ => ?_)
    cases hprojection : t.projections (tenantId, planId) with
    | none => exact (Exec.sat_raise _).mpr rfl
    | some p =>
      refine (Exec.sat_pure p).mpr (.replayed ?_ hprojection)
      rw [hknown]
      exact Option.some_ne_none existing
  | none =>
    refine Sat.check (fun _ => rfl) (fun hbound => Sat.check (fun _ => rfl) (fun _ => ?_))
    refine Sat.attempt (fun _ _ => rfl) (fun fact hfact => ?_)
    refine Sat.attempt (fun _ _ => rfl) (fun p hp => ?_)
    rw [Exec.sat_bind, Exec.sat_modify, Exec.sat_pure]
    exact .recorded fact ⟨hknown, hbound, ⟨actor, time, hfact⟩, hp⟩

/-- A new command at the current version, whose fact the reducer accepts, is recorded. -/
theorem append_recorded (hknown : t.commands (tenantId, commandId) = none)
    (hbound : (t.facts (tenantId, planId)).length < maxFacts)
    (hversion : ((t.facts (tenantId, planId)).length : Int) = expectedVersion)
    (hbuilt : ∃ fact, buildFact sha tenantId planId (t.facts (tenantId, planId)).length
      (t.headDigest (tenantId, planId)) factType commandId actor time payload = .ok fact)
    (hreduced : ∀ fact, buildFact sha tenantId planId (t.facts (tenantId, planId)).length
      (t.headDigest (tenantId, planId)) factType commandId actor time payload = .ok fact →
        ∃ p, reduceRemediation (t.projections (tenantId, planId)) fact = .ok p) :
    Sat (append sha tenantId planId expectedVersion factType commandId actor time payload) t
      (fun p t' => ∃ fact, Recorded sha t (tenantId, planId) factType commandId payload fact p ∧
        t' = t.record (tenantId, planId) (tenantId, commandId)
          (planId, commandFingerprint sha factType payload) fact p)
      (fun _ _ => False) := by
  obtain ⟨fact, hfact⟩ := hbuilt
  obtain ⟨p, hp⟩ := hreduced fact hfact
  show Sat (Exec.read >>= _) t _ _
  rw [Exec.sat_bind, Exec.sat_read]
  dsimp only
  rw [hknown]
  refine Sat.check (fun h => absurd hbound h) (fun _ => Sat.check (fun h => absurd hversion h)
    (fun _ => ?_))
  refine Sat.attempt (fun e he => ?_) (fun fact' hfact' => ?_)
  · rw [State.headDigest] at hfact
    rw [hfact] at he
    cases he
  · obtain rfl := Except.ok.inj (hfact.symm.trans hfact')
    refine Sat.attempt (fun e he => ?_) (fun p' hp' => ?_)
    · rw [hp] at he
      cases he
    · rw [Exec.sat_bind, Exec.sat_modify, Exec.sat_pure]
      exact ⟨fact, ⟨hknown, hbound, ⟨actor, time, hfact⟩, hp'⟩, rfl⟩

end Append

/-! ## One preflight -/

theorem now_sat (t : State) :
    Sat (now ports) t (fun _ t' => t' = t.advance 1) (fun _ _ => False) := rfl

/-- Questions are counted. -/
theorem path_tick {s t t' : State} {op : Op} (h : Path Event.apply (May sha ports s op) t t') :
    t.tick ≤ t'.tick := by
  refine h.relates (fun _ => le_rfl) (fun _ _ _ => le_trans) (R := fun a b => a.tick ≤ b.tick) ?_
  intro u i hi
  cases hi
  case tick => exact Nat.le_succ _
  case call => exact Nat.le_succ _
  all_goals exact le_rfl

/-- The state adds facts of one type, or none, to the ledger of a plan. -/
def Extends (s : State) (key : String × String) (types : List RemediationFactType) (s' : State) :
    Prop :=
  ∃ new, s'.facts key = s.facts key ++ new ∧ ∀ f ∈ new, f.factType ∈ types

theorem Extends.of_same {s t : State} {key : String × String} {types : List RemediationFactType}
    (h : SameLedger s t) : Extends s key types t := by
  refine ⟨[], ?_, by simp⟩
  rw [h.facts, List.append_nil]

/-- An append adds at most its own fact, whether it returns or raises. -/
theorem appendNow_extends {s t : State} (hsame : SameLedger s t) {plan : RemediationPlan}
    {version : Int} {factType : RemediationFactType} {T : List RemediationFactType}
    (htype : factType ∈ T) {commandId : String} {actor : Identifier} {payload : Fields} :
    Sat (appendNow sha ports plan version factType commandId actor payload) t
      (fun _ t' => Extends s plan.key T t') (fun _ t' => Extends s plan.key T t') := by
  have hnow : SameLedger s (t.advance 1) := ⟨hsame.facts, hsame.commands, hsame.projections⟩
  show Sat (now ports >>= _) t _ _
  refine Sat.call (now_sat t) (fun _ _ h => h.elim) ?_
  rintro time t' rfl
  refine append_sat.mono ?_ ?_
  · intro p t' happended
    cases happended with
    | replayed => exact .of_same hnow
    | recorded fact hrecorded =>
      obtain ⟨actor, time, hbuilt⟩ := hrecorded.built
      obtain ⟨-, -, hfact, -⟩ := buildFact_ok hbuilt
      refine ⟨[fact], ?_, ?_⟩
      · show Function.update (t.advance 1).facts plan.key
          ((t.advance 1).facts plan.key ++ [fact]) plan.key = _
        rw [Function.update_self, hnow.facts]
      · intro f hf
        rw [List.mem_singleton.mp hf, hfact]
        exact htype
  · rintro e t' rfl
    exact .of_same hnow

/-- The two commands of a preflight have the same shape. -/
theorem isIdentifier_result {operationId : String}
    (h : isIdentifier (operationId ++ ":intent") = true) :
    isIdentifier (operationId ++ ":result") = true := by
  have hlen : ":intent".toList.length = 7 ∧ ":result".toList.length = 7 := by decide
  have hresult : ":result".toList.all identifierChar = true := by decide
  simp only [isIdentifier, isReference, String.toList_append, List.length_append, List.all_append,
    Bool.and_eq_true, decide_eq_true_eq] at h ⊢
  exact ⟨⟨by omega, by omega⟩, h.2.1, hresult⟩

theorem result_ne_intent (operationId : String) :
    operationId ++ ":result" ≠ operationId ++ ":intent" := by
  intro h
  have hlist := congrArg String.toList h
  rw [String.toList_append, String.toList_append] at hlist
  exact absurd (List.append_cancel_left hlist) (by decide)

/-- **The result of a preflight is recorded** when its intent was, its command is new and there is
    room. -/
theorem result_recorded {t : State} (hok : LedgerOk t) {plan : RemediationPlan}
    {operationId : String} {payload payload' : Fields} {fact : RemediationFact}
    {started : RemediationProjection} {actor : Identifier} {factType : RemediationFactType}
    (hstarted : Recorded sha t plan.key .preflightRequested (operationId ++ ":intent") payload fact
      started)
    {u : State} (hu : SameLedger (t.record plan.key (plan.tenantId.val, operationId ++ ":intent")
      (plan.planId.val, commandFingerprint sha .preflightRequested payload) fact started) u)
    (hroom : (t.facts plan.key).length + 2 ≤ maxFacts)
    (hcommand : t.commands (plan.tenantId.val, operationId ++ ":result") = none)
    (htype : factType = .executionFailed ∨ factType = .dryRunSucceeded)
    (hpayload : payload'.entries.length ≤ 32) :
    Sat (appendNow sha ports plan started.version factType (operationId ++ ":result") actor payload')
      u (fun p u' => p.status = factType.status ∧ u'.projections plan.key = some p ∧
        ∃ fact', fact'.factType = factType ∧ u'.facts plan.key = t.facts plan.key ++ [fact, fact'])
      (fun _ _ => False) := by
  have hokRecord : LedgerOk (t.record plan.key (plan.tenantId.val, operationId ++ ":intent")
      (plan.planId.val, commandFingerprint sha .preflightRequested payload) fact started) :=
    hok.record hstarted _ _
  have hokNow : LedgerOk (u.advance 1) := (hokRecord.of_same hu).of_same ⟨rfl, rfl, rfl⟩
  obtain ⟨actor', time', hbuilt'⟩ := hstarted.built
  have hreduced := reduceRemediation_ok hstarted.reduced
  obtain ⟨-, -, hpreflight, -⟩ := buildFact_ok hbuilt'
  -- the ledger after the intent
  have hfacts : (u.advance 1).facts plan.key = t.facts plan.key ++ [fact] := by
    show u.facts plan.key = _
    rw [hu.facts]
    exact Function.update_self _ _ _
  have hprojection : (u.advance 1).projections plan.key = some started := by
    show u.projections plan.key = _
    rw [hu.projections]
    exact Function.update_self _ _ _
  have hfresh : (u.advance 1).commands (plan.tenantId.val, operationId ++ ":result") = none := by
    show u.commands _ = none
    rw [hu.commands]
    refine (Function.update_of_ne ?_ _ _).trans hcommand
    intro h
    exact result_ne_intent operationId (Prod.mk.inj h).2
  have hlength : ((u.advance 1).facts plan.key).length = (t.facts plan.key).length + 1 := by
    rw [hfacts, List.length_append]
    rfl
  obtain ⟨hversion, hdigest⟩ := hokNow.current plan.key started hprojection
  have hintent : isIdentifier (operationId ++ ":intent") = true := by
    rw [← (buildFact_ok hbuilt').2.2.2.2.1]
    exact fact.commandId.property
  have hstatus : started.status = .preflight := by
    rw [hreduced.status, hpreflight]
    rfl
  have hallowed : factType.status ∈ allowed started.status := by
    rw [hstatus]
    rcases htype with rfl | rfl
    · decide
    · decide
  show Sat (now ports >>= _) u _ _
  refine Sat.call (now_sat u) (fun _ _ h => h.elim) ?_
  rintro time u' rfl
  have hbound : ((u.advance 1).facts plan.key).length < maxFacts := by omega
  refine (append_recorded hfresh hbound (congrArg Nat.cast hversion.symm)
    (buildFact_total _ _ _ _ plan.tenantId.property plan.planId.property
      (isIdentifier_result hintent) actor.property hpayload) ?_).mono ?_ (fun _ _ h => h)
  · intro fact' hfact'
    obtain ⟨hsequence, hprevious, hfactType, -⟩ := buildFact_ok hfact'
    show ∃ p, reduceRemediation ((u.advance 1).projections plan.key) fact' = .ok p
    rw [hprojection]
    refine reduceRemediation_total (by rw [hsequence, hversion]; rfl) (hprevious.trans hdigest.symm)
      (by rw [hstatus]; decide) (by rw [hfactType]; exact hallowed) ?_
    rw [hfactType]
    rcases htype with rfl | rfl
    · decide
    · decide
  · rintro p u' ⟨fact', hrecorded, rfl⟩
    obtain ⟨actor'', time'', hbuilt''⟩ := hrecorded.built
    obtain ⟨-, -, hfactType, -⟩ := buildFact_ok hbuilt''
    refine ⟨?_, Function.update_self _ _ _, fact', hfactType, ?_⟩
    · rw [(reduceRemediation_ok hrecorded.reduced).status, hfactType]
    · show Function.update (u.advance 1).facts plan.key
        ((u.advance 1).facts plan.key ++ [fact']) plan.key = _
      rw [Function.update_self, hfacts, List.append_assoc]
      rfl

theorem appendNow_sat {t : State} {plan : RemediationPlan} {version : Int}
    {factType : RemediationFactType} {commandId : String} {actor : Identifier} {payload : Fields} :
    Sat (appendNow sha ports plan version factType commandId actor payload) t
      (fun p t' => Appended sha (t.advance 1) plan.key factType commandId payload p t')
      (fun _ t' => t' = t.advance 1) := by
  show Sat (now ports >>= _) t _ _
  refine Sat.call (now_sat t) (fun _ _ h => h.elim) ?_
  rintro time t' rfl
  exact append_sat

theorem callAdapter_sat {α : Type} {call : AdapterCall} {answer : Nat → Except Error α}
    {t : State} :
    Sat (callAdapter call answer) t
      (fun a t' => answer t.tick = .ok a ∧ t' = Event.apply (.call call) t)
      (fun e t' => answer t.tick = .error e ∧ t' = Event.apply (.call call) t) := by
  show Sat (Exec.lift (answer t.tick)) (Event.apply (.call call) t) _ _
  rw [Exec.sat_lift]
  exact ⟨fun a ha => ⟨ha, rfl⟩, fun e he => ⟨he, rfl⟩⟩

/-- The results a preflight records. -/
def resultTypes : List RemediationFactType := [.executionFailed, .dryRunSucceeded]

/-- What a preflight leaves, when the dry runs asked during the call return: no new intent, or a
    successful dry run, or a plan in the dead end. -/
def PreflightOutcome (ports : Ports) (s : State) (key command : String × String) (s' : State) :
    Prop :=
  (s.commands command = none → ∀ n intent, s.tick ≤ n → n < s'.tick →
    ∃ receipt, ports.dryRun n intent = .ok receipt) →
    Extends s key resultTypes s' ∨
    (∃ new fact, s'.facts key = s.facts key ++ new ∧ fact ∈ new ∧
      fact.factType = .dryRunSucceeded) ∨
    DeadEnd s' key

theorem preflight_outcome (sha : Sha256) (ports : Ports) {s : State} (hok : LedgerOk s)
    (hkeyed : ∀ key p, s.plans key = some p → p.key = key) {identity : IdentityContext}
    {request : EffectRequest}
    (hroom : s.commands (identity.tenantId.val, request.operationId ++ ":intent") = none →
      s.commands (identity.tenantId.val, request.operationId ++ ":result") = none ∧
        (s.facts (identity.tenantId.val, request.planId)).length + 2 ≤ maxFacts) :
    Sat (preflight sha ports identity request) s
      (fun _ s' => PreflightOutcome ports s (identity.tenantId.val, request.planId)
        (identity.tenantId.val, request.operationId ++ ":intent") s')
      (fun _ s' => PreflightOutcome ports s (identity.tenantId.val, request.planId)
        (identity.tenantId.val, request.operationId ++ ":intent") s') := by
  have heffect : (Op.preflight identity request).effect
      = some (identity, request, [.approved, .preflight]) := rfl
  refine Sat.call (validatedScope_traced heffect) ?_ ?_
  · intro e s' hpath _
    exact .inl (.of_same (Checks.sameLedger hpath))
  rintro scope t₁ ⟨hpath₁, hscope⟩
  have hchecked : Exec.Traced Event.apply (Checks sha ports s (.preflight identity request))
      (effectIntent sha ports scope request true) t₁ _ := effectIntent_traced Checks.tick hscope
  refine Sat.call hchecked ?_ ?_
  · intro e s' hpath _
    exact .inl (.of_same (Checks.sameLedger (hpath₁.trans hpath)))
  rintro intent t₂ ⟨hpath₂, hintent, -⟩
  have hpath : Path Event.apply (Checks sha ports s (.preflight identity request)) s t₂ :=
    hpath₁.trans hpath₂
  have hsame : SameLedger s (t₂.advance 1) :=
    ⟨(Checks.sameLedger hpath).facts, (Checks.sameLedger hpath).commands,
      (Checks.sameLedger hpath).projections⟩
  have htick : s.tick ≤ t₂.tick := path_tick (hpath.mono (fun _ _ h => h.1))
  have hkey : scope.plan.key = (identity.tenantId.val, request.planId) := by
    obtain ⟨identity', statuses, hop, hscoped⟩ := hscope
    obtain ⟨rfl, -⟩ := Prod.mk.inj (Option.some.inj (heffect.symm.trans hop))
    exact hkeyed _ _ hscoped.plan
  rw [← hkey] at hroom ⊢
  have htenant : scope.plan.tenantId.val = identity.tenantId.val := (Prod.mk.inj hkey).1
  refine Sat.call appendNow_sat ?_ ?_
  · rintro e s' rfl _
    exact .inl (.of_same hsame)
  intro started t₃ happended
  cases happended with
  | replayed hknown hprojection =>
    -- the intent was recorded before: only a result can be new
    have hcalled : SameLedger s (Event.apply (.call (.dryRun intent)) (t₂.advance 1)) :=
      ⟨hsame.facts, hsame.commands, hsame.projections⟩
    refine Sat.call callAdapter_sat ?_ ?_
    · rintro e s' ⟨-, rfl⟩ _
      exact .inl (.of_same hcalled)
    rintro receipt t₄ ⟨-, rfl⟩
    split
    · refine Sat.call (appendNow_extends hcalled (T := resultTypes) (by decide))
        (fun _ _ h _ => .inl h) (fun _ s' h => ?_)
      exact (Exec.sat_raise _).mpr (fun _ => .inl h)
    · refine Sat.call (appendNow_extends hcalled (T := resultTypes) (by decide))
        (fun _ _ h _ => .inl h) (fun _ s' h => ?_)
      exact (Exec.sat_pure _).mpr (fun _ => .inl h)
  | recorded fact hrecorded =>
    have hfresh : s.commands (identity.tenantId.val, request.operationId ++ ":intent") = none := by
      have h := hrecorded.fresh
      rw [hsame.commands] at h
      rw [← htenant]
      exact h
    obtain ⟨hcommand, hlength⟩ := hroom hfresh
    generalize Fields.of [("action_id", Json.str request.actionId),
      ("action_digest", .str (intent.action.digest sha).val)] = asked at hrecorded ⊢
    have hresult : ∀ {factType : RemediationFactType} {payload : Fields},
        factType = .executionFailed ∨ factType = .dryRunSucceeded → payload.entries.length ≤ 32 →
        Sat (appendNow sha ports scope.plan started.version factType (request.operationId ++ ":result")
          (actorRef sha identity) payload)
          (Event.apply (.call (.dryRun intent)) ((t₂.advance 1).record scope.plan.key
            (scope.plan.key.1, request.operationId ++ ":intent") (scope.plan.key.2,
              commandFingerprint sha .preflightRequested asked) fact started))
          (fun p u' => p.status = factType.status ∧ u'.projections scope.plan.key = some p ∧
            ∃ fact', fact'.factType = factType ∧
              u'.facts scope.plan.key = s.facts scope.plan.key ++ [fact, fact'])
          (fun _ _ => False) := by
      intro factType payload htype hpayload
      rw [← hsame.facts]
      rw [← hsame.facts] at hlength
      rw [← hsame.commands, ← htenant] at hcommand
      exact result_recorded (hok.of_same hsame) hrecorded ⟨rfl, rfl, rfl⟩ hlength hcommand htype
        hpayload
    refine Sat.call callAdapter_sat ?_ ?_
    · -- the dry run raised, although it was to answer
      rintro e s' ⟨herror, rfl⟩ hdry
      obtain ⟨receipt, hreceipt⟩ := hdry hfresh (t₂.tick + 1) intent (by omega) (Nat.lt_succ_self _)
      have herror' : ports.dryRun (t₂.tick + 1) intent = .error e := herror
      rw [hreceipt] at herror'
      cases herror'
    rintro receipt t₄ ⟨-, rfl⟩
    split
    · refine Sat.call (hresult (.inl rfl) (by simp [Fields.of])) (fun _ _ h => h.elim) ?_
      rintro p s' ⟨hstatus, hprojection, fact', htype, hfacts⟩
      refine (Exec.sat_raise _).mpr (fun _ => .inr (.inr ⟨p, hprojection, ?_⟩))
      rw [hstatus]
      decide
    · refine Sat.call (hresult (.inr rfl) (by simp [Fields.of])) (fun _ _ h => h.elim) ?_
      rintro p s' ⟨hstatus, hprojection, fact', htype, hfacts⟩
      exact (Exec.sat_pure _).mpr (fun _ => .inr (.inl ⟨[fact, fact'], fact', hfacts, by simp, htype⟩))

/-! ## Whole runs -/

/-- Only a preflight of the action records the intent of a dry run of it. -/
theorem preflightRequested_origin {s t : State} {op : Op} {key : String × String}
    {commandId : String} {payload : Fields} {actionId : String}
    (h : Records sha ports s t op key .preflightRequested commandId payload)
    (haction : payload.sorted.lookup "action_id" = some (.str actionId)) :
    ∃ identity request scope, op = .preflight identity request ∧
      InScope sha ports s op request scope ∧ key = scope.plan.key ∧ request.actionId = actionId := by
  generalize hfact : RemediationFactType.preflightRequested = factType at h
  cases h
  case preflightIntent identity request scope intent hscope =>
    refine ⟨identity, request, scope, rfl, hscope, rfl, ?_⟩
    have hlookup : (Fields.of [("action_id", .str request.actionId),
        ("action_digest", .str (intent.action.digest sha).val)]).sorted.lookup "action_id"
          = some (.str request.actionId) := by
      rw [Fields.lookup_sorted]
      rfl
    exact Json.str.inj (Option.some.inj (hlookup.symm.trans haction))
  case decision request approval plan decision hdecided =>
    unfold decisionFact at hfact
    split at hfact
    · cases hfact
    · split at hfact <;> cases hfact
  case executionResult receipt hscope hexecution =>
    rw [← hfact] at hexecution
    cases houtcome : receipt.outcome <;> rw [houtcome] at hexecution <;> cases hexecution
  case verificationResult =>
    split at hfact <;> cases hfact
  case rollbackResult =>
    split at hfact <;> cases hfact
  all_goals cases hfact

/-- Every recorded intent of a dry run has been followed by a success of that action, or the plan is in
    the dead end. -/
def DryRunsAnswered (h : List HistoryEntry) (s : State) : Prop :=
  ∀ key actionId, Preflighted s key actionId → DryRan h s key actionId ∨ DeadEnd s key

theorem DryRan.step {h : List HistoryEntry} {s : State} {key : String × String} {actionId : String}
    (hran : DryRan h s key actionId) (op : Op) :
    DryRan (h ++ [Machine.entry (step sha ports) s op]) (step sha ports s op).2 key actionId := by
  obtain ⟨fact, hfact, htype, e, he, hadds⟩ := hran
  obtain ⟨new, hnew, -⟩ := step_facts sha ports s op key
  refine ⟨fact, ?_, htype, e, List.mem_append_left _ he, hadds⟩
  rw [hnew]
  exact List.mem_append_left _ hfact

/-- One call keeps the invariant: a new intent comes from a preflight, whose outcome is known. -/
theorem DryRunsAnswered.step {h : List HistoryEntry} {s : State} (hok : LedgerOk s)
    (hkeyed : ∀ key p, s.plans key = some p → p.key = key) (hinv : DryRunsAnswered h s) {op : Op}
    (hanswered : Answered ports (Machine.entry (step sha ports) s op)) :
    DryRunsAnswered (h ++ [Machine.entry (step sha ports) s op]) (step sha ports s op).2 := by
  rintro key actionId ⟨fact, hfact, htype, haction⟩
  obtain ⟨new, hnew, hall⟩ := step_facts sha ports s op key
  rw [hnew] at hfact
  rcases List.mem_append.mp hfact with hold | hmem
  · rcases hinv key actionId ⟨fact, hold, htype, haction⟩ with hran | hdead
    · exact .inl (hran.step op)
    · exact .inr (hdead.step op)
  -- the intent is new
  obtain ⟨t, factType, commandId, payload, hrecords, hfactType, hpayload⟩ := hall fact hmem
  rw [← hfactType, htype] at hrecords
  rw [hpayload] at haction
  obtain ⟨identity, request, scope, rfl, ⟨identity', statuses, heffect, hscoped⟩, hkey, hid⟩ :=
    preflightRequested_origin hrecords haction
  obtain rfl : identity = identity' := (Prod.mk.inj (Option.some.inj heffect)).1
  obtain rfl : key = (identity.tenantId.val, request.planId) :=
    hkey.trans (hkeyed _ _ hscoped.plan)
  have hcondition := hanswered.preflight identity request rfl
  have houtcome : PreflightOutcome ports s (identity.tenantId.val, request.planId)
      (identity.tenantId.val, request.operationId ++ ":intent")
      (Remediation.step sha ports s (.preflight identity request)).2 := by
    have hmethod := preflight_outcome sha ports hok hkeyed (fun hfresh => (hcondition hfresh).2)
    exact Sat.state (Sat.call hmethod (fun _ _ h => h) (fun _ _ h => (Exec.sat_pure _).mpr h))
  rcases houtcome (fun hfresh => (hcondition hfresh).1) with
    ⟨new', hnew', hresult⟩ | ⟨new', success, hnew', hsuccess, hsucceeded⟩ | hdead
  · obtain rfl : new = new' := List.append_cancel_left (hnew.symm.trans hnew')
    have habsurd := hresult fact hmem
    rw [htype] at habsurd
    exact absurd habsurd (by decide)
  · refine .inl ⟨success, ?_, hsucceeded, _, List.mem_append_right _ List.mem_cons_self,
      ⟨new', hnew', hsuccess⟩, identity, request, rfl, rfl, hid⟩
    rw [hnew']
    exact List.mem_append_right _ hsuccess
  · exact .inr hdead

theorem dryRunsAnswered_run (policies : List ActionPolicy) (limits : String → Int) (ops : List Op)
    (hanswered : ∀ e ∈ history sha ports (State.start policies limits) ops, Answered ports e) :
    DryRunsAnswered (history sha ports (State.start policies limits) ops)
      (run sha ports (State.start policies limits) ops) := by
  induction ops using List.reverseRecOn with
  | nil =>
    rintro key actionId ⟨fact, hfact, -⟩
    exact absurd hfact List.not_mem_nil
  | append_singleton ops op ih =>
    rw [history, Machine.trace_concat] at hanswered ⊢
    rw [run, Machine.final_concat]
    refine (ih (fun e he => hanswered e (List.mem_append_left _ he))).step
      (ledgerOk_run policies limits ops) ?_
      (hanswered _ (List.mem_append_right _ List.mem_cons_self))
    intro key p hp
    exact (plans_proposed policies limits ops key p hp).1

/-- Only an execution calls `actions.execute`. -/
theorem mayCall_execute {op : Op} {intent : ActionIntent} (h : op.mayCall (.execute intent)) :
    ∃ identity request, op = .execute identity request := by
  cases op with
  | execute identity request => exact ⟨identity, request, rfl⟩
  | propose => exact h.elim
  | requestApproval => exact h.elim
  | decide => exact h.elim
  | revoke => exact h.elim
  | get => exact h.elim
  | preflight => exact h.elim
  | reconcile => exact h.elim
  | verify => exact h.elim
  | rollback => exact h.elim
  | replacePolicy => exact h.elim

theorem executable_not_deadEnd {status : RemediationStatus}
    (h : status ∈ [.preflight, .executing, .succeeded]) : status ∉ deadEnd := by
  revert h
  cases status <;> decide

/-- **No execution without a successful dry run**, in a run where every new preflight is answered and
    an action is executed only after a preflight of it was recorded. -/
theorem dry_run_first (policies : List ActionPolicy) (limits : String → Int) (ops : List Op)
    (hanswered : ∀ e ∈ history sha ports (State.start policies limits) ops, Answered ports e) :
    DryRunFirst sha ports (State.start policies limits) ops := by
  intro pre e post intent hhistory hperforms
  obtain ⟨xs, hpre, hbefore, he⟩ := history_split hhistory
  have hthis : Answered ports e := hanswered e (by
    rw [hhistory]
    exact List.mem_append_right _ List.mem_cons_self)
  have hearlier : ∀ e' ∈ history sha ports (State.start policies limits) xs, Answered ports e' := by
    intro e' he'
    refine hanswered e' ?_
    rw [hhistory, hpre]
    exact List.mem_append_left _ he'
  rw [he] at hperforms
  obtain ⟨hcall, request, scope, dryRun, time, ⟨identity, statuses, heffect, hscoped⟩, hbuilt⟩ :=
    performs_intended hperforms
  obtain ⟨identity', request', hop⟩ := mayCall_execute hcall
  rw [hop] at heffect
  obtain ⟨rfl, rfl, rfl⟩ : identity' = identity ∧ request' = request ∧
      [.preflight, .executing, .succeeded] = statuses := by
    simpa [Op.effect] using heffect
  obtain ⟨htenant, hplanId, -, -, hid⟩ := buildIntent_ok hbuilt
  have hkey : scope.plan.key = (identity'.tenantId.val, request'.planId) :=
    (plans_proposed policies limits xs _ _ (hbefore ▸ hscoped.plan)).1
  have hplan : (intent.tenantId.val, intent.planId.val) = scope.plan.key :=
    Prod.ext (congrArg Subtype.val htenant) (congrArg Subtype.val hplanId)
  have haction : intent.action.actionId.val = request'.actionId := hid
  rw [hplan, haction, hkey]
  have hinv := dryRunsAnswered_run policies limits xs hearlier
  rw [← hpre, ← hbefore] at hinv
  rcases hinv _ _ (hthis.execute identity' request' hop) with hran | ⟨p, hp, hdead⟩
  · exact hran
  · -- in the dead end the scope check refuses
    rw [Option.some.inj (hp.symm.trans hscoped.projection)] at hdead
    exact absurd hdead (executable_not_deadEnd hscoped.status)

/-- The fact is the intent of a dry run of the action. -/
def requestsPreflight (actionId : String) (fact : RemediationFact) : Bool :=
  fact.factType = .preflightRequested &&
    match fact.payload.lookup "action_id" with
    | some (.str a) => a = actionId
    | _ => false

theorem preflighted_of_any {s : State} {key : String × String} {actionId : String}
    (h : (s.facts key).any (requestsPreflight actionId) = true) : Preflighted s key actionId := by
  obtain ⟨fact, hfact, hrequests⟩ := List.any_eq_true.mp h
  obtain ⟨htype, haction⟩ := Bool.and_eq_true_iff.mp hrequests
  refine ⟨fact, hfact, of_decide_eq_true htype, ?_⟩
  split at haction
  · rename_i a hlookup
    rw [hlookup, of_decide_eq_true haction]
  · cases haction

theorem sample_preflight_answered {s : State}
    (hcommand : (s.commands ("t", "o1:result")).isNone = true)
    (hroom : (s.facts ("t", "p")).length + 2 ≤ maxFacts) :
    Answered (samplePorts false) (Machine.entry (step .constant (samplePorts false)) s
      (.preflight (sampleIdentity "x") (sampleRequest "a" "o1" 4))) := by
  constructor
  · rintro identity request hop -
    obtain ⟨rfl, rfl⟩ := Op.preflight.inj hop
    exact ⟨fun n intent _ _ => ⟨_, rfl⟩, Option.isNone_iff_eq_none.mp hcommand, hroom⟩
  · rintro identity request hop
    cases hop

theorem sample_execute_answered {s : State}
    (h : (s.facts ("t", "p")).any (requestsPreflight "a") = true) :
    Answered (samplePorts false)
      (Machine.entry (step .constant (samplePorts false)) s sampleExecute) := by
  constructor
  · rintro identity request hop
    cases hop
  · rintro identity request hop
    obtain ⟨rfl, rfl⟩ := Op.execute.inj hop
    exact preflighted_of_any h

theorem sample_approval_answered {ports : Ports} {s : State} {op : Op}
    (h : op ∈ sampleApproval (samplePlan someone) "y") :
    Answered ports (Machine.entry (step .constant ports) s op) := by
  simp only [sampleApproval, List.mem_cons, List.not_mem_nil, or_false] at h
  constructor
  · rintro identity request rfl
    simp at h
  · rintro identity request rfl
    simp at h

/-- The worked case: the preflight of action `a` is answered, and the action is executed after it. -/
theorem dry_run_first_sample :
    (∃ intent, Performs (Machine.entry (step .constant (samplePorts false))
      (run .constant (samplePorts false) sampleStart sampleOps) sampleExecute) (.execute intent)) ∧
    DryRunFirst .constant (samplePorts false) sampleStart (sampleOps ++ [sampleExecute]) := by
  refine ⟨performs_execute (by decide +kernel), dry_run_first [samplePolicy] (fun _ => 2) _ ?_⟩
  intro e he
  rw [history, Machine.trace_concat, sampleOps, Machine.trace_concat] at he
  rcases List.mem_append.mp he with he | he
  · rcases List.mem_append.mp he with he | he
    · obtain ⟨xs, ys, hops, hentry⟩ := Machine.trace_mem he
      rw [hentry]
      refine sample_approval_answered ?_
      rw [hops]
      exact List.mem_append_right _ List.mem_cons_self
    · rw [List.mem_singleton.mp he]
      exact sample_preflight_answered (by decide +kernel) (by decide +kernel)
  · rw [List.mem_singleton.mp he]
    exact sample_execute_answered (by decide +kernel)

/-- **What the code allows.**  The dry run of the only preflight raises; its intent stays in the ledger,
    the plan has status `preflight`, and the action is executed. -/
theorem executes_without_dry_run :
    ¬DryRunFirst .constant (samplePorts true) sampleStart
      (sampleOps ++ [.execute (sampleIdentity "x") (sampleRequest "a" "o2" 5)]) := by
  intro hfirst
  have hexecuted : (run .constant (samplePorts true) sampleStart sampleOps).calls.countP
      AdapterCall.isExecute < (step .constant (samplePorts true)
        (run .constant (samplePorts true) sampleStart sampleOps)
          (.execute (sampleIdentity "x") (sampleRequest "a" "o2" 5))).2.calls.countP
            AdapterCall.isExecute := by decide +kernel
  have hnone : RemediationFactType.dryRunSucceeded ∉
      ((run .constant (samplePorts true) sampleStart sampleOps).facts ("t", "p")).map (·.factType) := by
    decide +kernel
  obtain ⟨intent, hperforms⟩ := performs_execute hexecuted
  obtain ⟨fact, hfact, htype, e, he, -, identity, request, hop, hkey, -⟩ :=
    hfirst _ _ [] intent (Machine.trace_concat sampleStart sampleOps _) hperforms
  -- the fact would come from the one preflight of the run, so it is in the ledger of its plan
  obtain ⟨xs, ys, hops, -⟩ := Machine.trace_mem he
  have hmem : Op.preflight identity request ∈ sampleOps := by
    rw [hops, hop]
    exact List.mem_append_right _ List.mem_cons_self
  simp only [sampleOps, sampleApproval, List.mem_append, List.mem_cons, List.not_mem_nil,
    Op.preflight.injEq, reduceCtorEq, or_false, false_or] at hmem
  rw [hkey, hmem.1, hmem.2] at hfact
  refine hnone (List.mem_map.mpr ⟨fact, hfact, htype⟩)

end Remediation

end Aegis
