/-
  PLANS OF SEVERAL ACTIONS.

  A plan has one to eight actions, and ONE status for all of them.  Its calls are carried out in order:
  every action is preflighted, then every action is executed, each under an operation of its own and
  with the version of the moment.

  The first execution leaves the plan at `SUCCEEDED`.  The scope check admits that status for the next
  one, the transition table does not: `EXECUTION_REQUESTED` leads to `EXECUTING`, which is not allowed
  after `SUCCEEDED`.  So a plan of two actions is never carried out (`carried_out_iff`).

  Both directions walk through the calls with one description of the state between them, a `Course`.
-/
import Mathlib
import Aegis.Remediation.Recovery

namespace Aegis

namespace Remediation

open Exec (Sat)

variable {sha : Sha256} {ports : Ports}

/-! ## Carrying out a plan -/

/-- The operations that the actions of a plan are called under. -/
structure Order where
  preflight : ActionDefinition → String
  execute : ActionDefinition → String

inductive PlanCall where
  | preflight (action : ActionDefinition)
  | execute (action : ActionDefinition)

def PlanCall.action : PlanCall → ActionDefinition
  | .preflight action => action
  | .execute action => action

def PlanCall.operation (order : Order) : PlanCall → String
  | .preflight action => order.preflight action
  | .execute action => order.execute action

/-- Every action is preflighted, then every action is executed, in plan order. -/
def RemediationPlan.calls (plan : RemediationPlan) : List PlanCall :=
  plan.actions.map .preflight ++ plan.actions.map .execute

/-- The version a caller reads off the projection. -/
def State.version (s : State) (plan : RemediationPlan) : Int :=
  (s.projections plan.key).elim 0 fun p => p.version

def PlanCall.request (order : Order) (plan : RemediationPlan) (s : State) (c : PlanCall) :
    EffectRequest where
  planId := plan.planId.val
  actionId := c.action.actionId.val
  expectedVersion := s.version plan
  operationId := c.operation order
  attempt := 1

def PlanCall.op (order : Order) (w : Warrant) (s : State) (c : PlanCall) : Op :=
  match c with
  | .preflight _ => .preflight w.identity (c.request order w.plan s)
  | .execute _ => .execute w.identity (c.request order w.plan s)

section Runs

variable (sha : Sha256) (ports : Ports) (order : Order) (w : Warrant)

def carryStep (s : State) (c : PlanCall) : Except Error Result × State :=
  step sha ports s (c.op order w s)

/-- The calls of the plan, one after the other. -/
def carryOut (s : State) : List (Machine.Entry State PlanCall (Except Error Result)) :=
  Machine.trace (carryStep sha ports order w) s w.plan.calls

/-- How many successes of an action the ledger holds after the calls of the plan. -/
def successes (s : State) (action : ActionDefinition) : Nat :=
  ((Machine.final (carryStep sha ports order w) s w.plan.calls).facts w.plan.key).countP fun f =>
    f.factType = .executionSucceeded && f.commandId.val = order.execute action ++ ":result"

/-- Every call succeeds, and the ledger gets one success for each action. -/
structure CarriedOut (s : State) : Prop where
  succeeds : ∀ e ∈ carryOut sha ports order w s, ∃ receipt, e.result = .ok (.receipt receipt)
  recorded : ∀ action ∈ w.plan.actions, successes sha ports order w s action = 1

end Runs

/-! ## Operations nothing is known of -/

/-- The suffixes of the commands of an operation. -/
def suffixes : List String :=
  [":intent", ":result"] ++ (List.range 17).map fun attempt : Nat => ":started:" ++ (attempt : Int).repr

/-- None of them ends in another one. -/
theorem suffixes_free : ∀ x ∈ suffixes, ∀ y ∈ suffixes, x.toList <:+ y.toList → x = y := by
  decide +kernel

/-- So a command tells its operation. -/
theorem operation_of_command {o o' x y : String} (hx : x ∈ suffixes) (hy : y ∈ suffixes)
    (h : o ++ x = o' ++ y) : o = o' := by
  have hlist : o.toList ++ x.toList = o'.toList ++ y.toList := by
    rw [← String.toList_append, ← String.toList_append, h]
  have hsame : x = y := by
    rcases List.suffix_or_suffix_of_suffix (List.suffix_append o.toList x.toList)
      (hlist ▸ List.suffix_append o'.toList y.toList) with hsuffix | hsuffix
    · exact suffixes_free x hx y hy hsuffix
    · exact (suffixes_free y hy x hx hsuffix).symm
  rw [hsame] at hlist
  exact String.toList_inj.mp (List.append_cancel_right hlist)

theorem intent_suffix : ":intent" ∈ suffixes := by decide

theorem result_suffix : ":result" ∈ suffixes := by decide

theorem started_suffix {attempt : Nat} (h : attempt ≤ 16) :
    ":started:" ++ (attempt : Int).repr ∈ suffixes := by
  have hmem : attempt ∈ List.range 17 := List.mem_range.mpr (by omega)
  exact List.mem_append_right _ (List.mem_map_of_mem hmem)

/-- Neither ledger, claims nor adapter know the operation. -/
structure Unused (w : Warrant) (s : State) (operationId : String) : Prop where
  commands : ∀ x ∈ suffixes, s.commands (w.plan.tenantId.val, operationId ++ x) = none
  unclaimed : s.claims (w.plan.tenantId.val, operationId) = none
  unapplied : effectCount (w.plan.tenantId.val, operationId) s.calls = 0

section Unused

variable {w : Warrant} {s s' : State} {operationId other : String}

theorem Unused.aside (h : Unused w s operationId) (ha : w.Aside sha s s') : Unused w s' operationId where
  commands x hx := by rw [ha.ledger.commands]; exact h.commands x hx
  unclaimed := by rw [ha.claims]; exact h.unclaimed
  unapplied := by rw [ha.calls]; exact h.unapplied

/-- A fact of another operation. -/
theorem Unused.record (h : Unused w s operationId) (hother : operationId ≠ other) {suffix : String}
    (hsuffix : suffix ∈ suffixes) (key : String × String) (entry : String × Digest)
    (fact : RemediationFact) (p : RemediationProjection) :
    Unused w (s.record key (w.plan.tenantId.val, other ++ suffix) entry fact p) operationId where
  commands x hx := by
    refine (Function.update_of_ne (fun heq => hother ?_) _ _).trans (h.commands x hx)
    exact operation_of_command hx hsuffix (Prod.mk.inj heq).2
  unclaimed := h.unclaimed
  unapplied := h.unapplied

/-- A claim of another operation. -/
theorem Unused.setClaim (h : Unused w s operationId) {key : String × String}
    (hkey : (w.plan.tenantId.val, operationId) ≠ key) (c : EffectClaim) :
    Unused w (s.setClaim key c) operationId where
  commands := h.commands
  unclaimed := (Function.update_of_ne hkey _ _).trans h.unclaimed
  unapplied := h.unapplied

/-- A call of the adapter that does not apply the effect of the operation. -/
theorem Unused.asked (h : Unused w s operationId) {call : AdapterCall}
    (hcall : call.applies (w.plan.tenantId.val, operationId) = false) :
    Unused w (s.asked call) operationId where
  commands := h.commands
  unclaimed := h.unclaimed
  unapplied := by
    show effectCount _ (s.calls ++ [call]) = 0
    have hnone := h.unapplied
    unfold effectCount at hnone ⊢
    rw [List.countP_append, hnone, List.countP_singleton, hcall]
    rfl

end Unused

/-! ## The state between two calls -/

theorem LedgerLaws.of_same {s s' : State} (h : LedgerLaws sha s) (hs : SameLedger s s') :
    LedgerLaws sha s' where
  numbered key := by rw [hs.facts]; exact h.numbered key
  bounded key := by rw [hs.facts]; exact h.bounded key
  chained key := by rw [hs.facts]; exact h.chained key
  replayed key := by rw [hs.facts, hs.projections]; exact h.replayed key
  ledger := h.ledger.of_same hs
  index :=
    ⟨by rw [hs.facts, hs.commands]; exact h.index.known, by rw [hs.facts]; exact h.index.distinct,
     by rw [hs.facts, hs.commands]; exact h.index.indexed⟩

/-- The ledger is in order, the warrant is stored, there is quota, and the plan stands at `p`. -/
structure Course (sha : Sha256) (w : Warrant) (fence : Identifier) (s : State)
    (p : RemediationProjection) : Prop where
  laws : LedgerLaws sha s
  stored : w.Stored sha s
  quota : w.Quota sha s
  projection : s.projections w.plan.key = some p
  binds : w.Binds sha p
  fence : p.fenceToken = fence

/-- What calls of one operation do: `n` facts more, and no trace in any other operation. -/
structure Passed (w : Warrant) (operationId : String) (n : Nat) (s s' : State) : Prop where
  length : (s'.facts w.plan.key).length = (s.facts w.plan.key).length + n
  unused : ∀ o, o ≠ operationId → Unused w s o → Unused w s' o

section Course

variable {w : Warrant} {fence : Identifier} {s s' s'' : State} {p : RemediationProjection}
  {operationId : String} {n m : Nat}

theorem Course.version (h : Course sha w fence s p) : s.version w.plan = p.version := by
  unfold State.version
  rw [h.projection]
  rfl

theorem Course.aside (h : Course sha w fence s p) (ha : w.Aside sha s s') : Course sha w fence s' p where
  laws := h.laws.of_same ha.ledger
  stored := h.stored.aside ha
  quota := ha.quota h.quota
  projection := by rw [ha.ledger.projections]; exact h.projection
  binds := h.binds
  fence := h.fence

theorem Course.asked (h : Course sha w fence s p) (call : AdapterCall) :
    Course sha w fence (s.asked call) p :=
  ⟨h.laws.of_same ⟨rfl, rfl, rfl⟩, ⟨h.stored.plan, h.stored.approval, h.stored.policy, h.stored.undenied,
    h.stored.quorum⟩, ⟨h.quota.allowed, h.quota.remaining⟩, h.projection, h.binds, h.fence⟩

theorem Course.setClaim (h : Course sha w fence s p) (key : String × String) (c : EffectClaim) :
    Course sha w fence (s.setClaim key c) p :=
  ⟨h.laws.of_same ⟨rfl, rfl, rfl⟩, ⟨h.stored.plan, h.stored.approval, h.stored.policy, h.stored.undenied,
    h.stored.quorum⟩, ⟨h.quota.allowed, h.quota.remaining⟩, h.projection, h.binds, h.fence⟩

theorem Course.record (h : Course sha w fence s p) {factType : RemediationFactType} {commandId : String}
    {payload : Fields} {fact : RemediationFact} {p' : RemediationProjection}
    (hrecorded : Recorded sha s w.plan.key factType commandId payload fact p')
    (hsuccessor : Successor p p' factType) :
    Course sha w fence (s.record w.plan.key (w.plan.tenantId.val, commandId)
      (w.plan.planId.val, commandFingerprint sha factType payload) fact p') p' where
  laws := by
    exact h.laws.record
      (c := ⟨w.plan.key.1, w.plan.key.2, 0, factType, commandId, "", ⟨0, 0⟩, payload⟩) hrecorded
  stored := ⟨h.stored.plan, h.stored.approval, h.stored.policy, h.stored.undenied, h.stored.quorum⟩
  quota := ⟨h.quota.allowed, h.quota.remaining⟩
  projection := Function.update_self _ _ _
  binds := hsuccessor.binds h.binds
  fence := hsuccessor.fence.trans h.fence

theorem Passed.trans (h : Passed w operationId n s s') (h' : Passed w operationId m s' s'') :
    Passed w operationId (n + m) s s'' where
  length := by rw [h'.length, h.length, Nat.add_assoc]
  unused o ho hunused := h'.unused o ho (h.unused o ho hunused)

theorem Passed.aside (ha : w.Aside sha s s') : Passed w operationId 0 s s' where
  length := by rw [ha.ledger.facts, Nat.add_zero]
  unused _ _ hunused := hunused.aside ha

theorem Passed.record {suffix : String} (hsuffix : suffix ∈ suffixes) (entry : String × Digest)
    (fact : RemediationFact) (p : RemediationProjection) :
    Passed w operationId 1 s
      (s.record w.plan.key (w.plan.tenantId.val, operationId ++ suffix) entry fact p) where
  length := by
    show (Function.update s.facts w.plan.key (s.facts w.plan.key ++ [fact]) w.plan.key).length = _
    rw [Function.update_self, List.length_append, List.length_singleton]
  unused o ho hunused := hunused.record ho hsuffix _ _ _ _

/-- A call of the adapter about this operation. -/
theorem Passed.asked {call : AdapterCall} (hcall : call.intent.key = (w.plan.tenantId.val, operationId)) :
    Passed w operationId 0 s (s.asked call) where
  length := rfl
  unused o ho hunused := by
    refine hunused.asked ?_
    cases call with
    | execute intent =>
      refine decide_eq_false fun heq => ho ?_
      exact (Prod.mk.inj (heq.symm.trans hcall)).2
    | dryRun intent => rfl
    | observe intent => rfl
    | compensate intent => rfl

/-- A change of a claim that is there. -/
theorem Passed.reclaim {key : String × String} {c : EffectClaim} (hc : s.claims key = some c)
    (c' : EffectClaim) : Passed w operationId 0 s (s.setClaim key c') where
  length := rfl
  unused o _ hunused := by
    refine hunused.setClaim (fun heq => ?_) c'
    have hnone := hunused.unclaimed
    rw [heq, hc] at hnone
    cases hnone

theorem Passed.setClaim (c : EffectClaim) :
    Passed w operationId 0 s (s.setClaim (w.plan.tenantId.val, operationId) c) where
  length := rfl
  unused _ ho hunused := hunused.setClaim (fun heq => ho (Prod.mk.inj heq).2) c

/-- A new command is recorded exactly when there is room. -/
theorem appendNow_course (h : Course sha w fence s p) {suffix : String} (hsuffix : suffix ∈ suffixes)
    (hcommand : s.commands (w.plan.tenantId.val, operationId ++ suffix) = none)
    (hidentifier : isIdentifier (operationId ++ suffix) = true) {factType : RemediationFactType}
    (hkind : factType ≠ .approvalRequested) (hmove : p.status ∉ terminal ∧ factType.status ∈ allowed p.status)
    {payload : Fields} (hpayload : payload.entries.length ≤ 32) (actor : Identifier) :
    Sat (appendNow sha ports w.plan p.version factType (operationId ++ suffix) actor payload) s
      (fun p' s' => Course sha w fence s' p' ∧ p'.status = factType.status ∧
        Passed w operationId 1 s s' ∧ s'.claims = s.claims ∧ s'.calls = s.calls ∧
        ∀ other, other ≠ operationId ++ suffix → s'.commands (w.plan.tenantId.val, other) =
          s.commands (w.plan.tenantId.val, other))
      (fun _ _ => (s.facts w.plan.key).length = maxFacts) := by
  show Sat (now ports >>= _) s _ _
  refine Sat.call (now_sat s) (fun _ _ h => h.elim) ?_
  rintro time t rfl
  have haside : w.Aside sha s (s.advance 1) := .tick s 1
  have hcourse := h.aside haside
  by_cases hroom : (s.facts w.plan.key).length < maxFacts
  · have hadmits : Admits (s.advance 1) w.plan p p.version factType (operationId ++ suffix) payload :=
      ⟨hcourse.laws.ledger, h.projection, hcommand, hidentifier, hroom, rfl, hkind, hmove, hpayload⟩
    refine (append_admitted hadmits actor time).mono ?_ (fun _ _ h => h.elim)
    rintro p' s' ⟨fact, hrecorded, hsuccessor, rfl⟩
    refine ⟨hcourse.record hrecorded hsuccessor, hsuccessor.status,
      (Passed.aside haside).trans (.record hsuffix _ _ _), rfl, rfl, fun other hother => ?_⟩
    exact Function.update_of_ne (fun heq => hother (Prod.mk.inj heq).2) _ _
  · have hfull : (s.facts w.plan.key).length = maxFacts :=
      Nat.le_antisymm (h.laws.bounded _) (Nat.not_lt.mp hroom)
    refine append_sat.mono ?_ (fun _ _ _ => hfull)
    intro p' s' happended
    cases happended with
    | replayed hknown => exact absurd hcommand hknown
    | recorded fact hrecorded => exact absurd hrecorded.bounded hroom

end Course

/-! ## One preflight -/

section Calls

variable {w : Warrant} {fence : Identifier} {s : State} {p : RemediationProjection} {operationId : String}
  {action : ActionDefinition}

/-- The request of a call at the version of the projection. -/
def Warrant.request (w : Warrant) (action : ActionDefinition) (operationId : String)
    (p : RemediationProjection) : EffectRequest :=
  { planId := w.plan.planId.val, actionId := action.actionId.val, expectedVersion := p.version,
    operationId, attempt := 1 }

/-- An operation that can be used for a call: its commands are identifiers, and it is unused. -/
structure Usable (w : Warrant) (s : State) (operationId : String) : Prop extends Unused w s operationId where
  identifier : isIdentifier operationId = true
  short : operationId.toList.length ≤ 117

theorem effectIntent_sat (haction : action ∈ w.plan.actions) (hid : isIdentifier operationId = true)
    (dryRun : Bool) :
    Sat (effectIntent sha ports (w.scope p) (w.request action operationId p) dryRun) s
      (fun intent s' => w.Intends sha action p.fenceToken (w.request action operationId p) dryRun intent ∧
        s' = s.advance 1) (fun _ _ => False) := by
  have hsubject : (w.request action operationId p).actionId = action.actionId.val := rfl
  have hoperation : isIdentifier (w.request action operationId p).operationId = true := hid
  have hattempt : 1 ≤ (w.request action operationId p).attempt ∧
      (w.request action operationId p).attempt ≤ 16 := by
    show (1 : Int) ≤ 1 ∧ (1 : Int) ≤ 16
    decide
  obtain ⟨intent, hbuilt, hintends⟩ : ∃ intent, buildIntent sha (w.scope p)
      (w.request action operationId p) dryRun (ports.clock s.tick) = .ok intent ∧
      w.Intends sha action p.fenceToken (w.request action operationId p) dryRun intent :=
    buildIntent_total w haction hsubject hoperation hattempt dryRun _
  show Sat (Exec.lift (buildIntent sha (w.scope p) (w.request action operationId p) dryRun
    (ports.clock s.tick))) (s.advance 1) _ _
  rw [hbuilt]
  exact ⟨hintends, rfl⟩

/-- **A preflight succeeds exactly when there is room for its two facts.** -/
theorem preflight_course (hcurrent : w.Current sha ports) (haction : action ∈ w.plan.actions)
    (h : Course sha w fence s p) (hstatus : p.status ∈ [RemediationStatus.approved, .preflight])
    (husable : Usable w s operationId) (hdry : ∀ n intent, ∃ receipt,
      ports.dryRun n intent = .ok receipt ∧ receipt.outcome = .dryRunSucceeded) :
    Sat (preflight sha ports w.identity (w.request action operationId p)) s
      (fun _ s' => ∃ p', Course sha w fence s' p' ∧ p'.status = .preflight ∧
        Passed w operationId 2 s s')
      (fun _ _ => maxFacts < (s.facts w.plan.key).length + 2) := by
  refine Sat.call (validatedScope_sat hcurrent h.stored h.quota h.projection h.binds hstatus haction)
    (fun _ _ h => h.elim) ?_
  rintro scope s₁ ⟨rfl, haside⟩
  refine Sat.call (effectIntent_sat haction husable.identifier true) (fun _ _ h => h.elim) ?_
  rintro intent s₂ ⟨hintends, rfl⟩
  have haside₂ : w.Aside sha s (s₁.advance 1) := haside.trans (.tick s₁ 1)
  have hlength : ((s₁.advance 1).facts w.plan.key).length = (s.facts w.plan.key).length :=
    (@Passed.aside _ _ _ _ operationId haside₂).length
  have hunused₂ := husable.toUnused.aside haside₂
  -- the request
  refine Sat.call (appendNow_course (h.aside haside₂) intent_suffix (hunused₂.commands _ intent_suffix)
    (isIdentifier_suffix husable.identifier husable.short (by decide) (by decide)) (by decide) ?_
    (by simp [Fields.of]) _) ?_ ?_
  · rcases List.mem_cons.mp hstatus with hp | hp
    · rw [hp]
      decide
    · rw [List.mem_singleton.mp hp]
      decide
  · intro e s' hfull
    omega
  rintro started s₃ ⟨hcourse₃, hstarted, hpassed₃, -, -, hcommands₃⟩
  have hroom := hcourse₃.laws.bounded w.plan.key
  have hlength₃ := hpassed₃.length
  -- the dry run
  refine Sat.call callAdapter_sat ?_ ?_
  · rintro e s' ⟨herror, -⟩
    obtain ⟨receipt, hreceipt, -⟩ := hdry s₃.tick intent
    rw [hreceipt] at herror
    cases herror
  rintro receipt s₄ ⟨hanswer, rfl⟩
  obtain ⟨receipt', hreceipt', houtcome⟩ := hdry s₃.tick intent
  obtain rfl := Except.ok.inj (hreceipt'.symm.trans hanswer)
  rw [if_neg (not_not.mpr houtcome)]
  have hkey : (AdapterCall.dryRun intent).intent.key = (w.plan.tenantId.val, operationId) := hintends.key
  have hpassed₄ : Passed w operationId 1 s (s₃.asked (.dryRun intent)) :=
    (Passed.aside haside₂).trans (hpassed₃.trans (.asked hkey))
  have hfresh : (s₃.asked (.dryRun intent)).commands (w.plan.tenantId.val, operationId ++ ":result") =
      none :=
    (hcommands₃ _ (result_ne_intent operationId)).trans (hunused₂.commands _ result_suffix)
  -- the result
  refine Sat.call (appendNow_course (hcourse₃.asked (.dryRun intent)) result_suffix hfresh
    (isIdentifier_suffix husable.identifier husable.short (by decide) (by decide)) (by decide)
    (by rw [hstarted]; decide) (by simp [Fields.of]) _) ?_ ?_
  · intro e s' hfull
    have hlength₄ := hpassed₄.length
    omega
  rintro p' s' ⟨hcourse, hdone, hpassed, -⟩
  exact ⟨p', hcourse, hdone, hpassed₄.trans hpassed⟩

/-! ## One execution -/

/-- What happens between two facts of an operation: the ledger stays. -/
structure Between (sha : Sha256) (w : Warrant) (fence : Identifier) (operationId : String)
    (p : RemediationProjection) (s s' : State) : Prop where
  course : Course sha w fence s' p
  passed : Passed w operationId 0 s s'
  commands : s'.commands = s.commands

theorem Between.aside (h : Course sha w fence s p) {s' : State} (ha : w.Aside sha s s') :
    Between sha w fence operationId p s s' := ⟨h.aside ha, .aside ha, ha.ledger.commands⟩

theorem Between.asked (h : Course sha w fence s p) {call : AdapterCall}
    (hcall : call.intent.key = (w.plan.tenantId.val, operationId)) :
    Between sha w fence operationId p s (s.asked call) := ⟨h.asked call, .asked hcall, rfl⟩

theorem Between.trans {s' s'' : State} (h : Between sha w fence operationId p s s')
    (h' : Between sha w fence operationId p s' s'') : Between sha w fence operationId p s s'' :=
  ⟨h'.course, h.passed.trans h'.passed, h'.commands.trans h.commands⟩

theorem ownReceipt_between (h : Course sha w fence s p) {intent : ActionIntent} (outcome : EffectOutcome)
    (detailCode : Identifier) (providerReceiptRef : Option Identifier) :
    Sat (ownReceipt ports intent outcome detailCode providerReceiptRef) s
      (fun _ s' => Between sha w fence operationId p s s') (fun _ _ => True) :=
  Between.aside h (.tick s 1)

theorem attemptEffect_between (h : Course sha w fence s p) {intent : ActionIntent}
    (hkey : intent.key = (w.plan.tenantId.val, operationId)) :
    Sat (attemptEffect ports intent) s (fun _ s' => Between sha w fence operationId p s s')
      (fun _ _ => True) := by
  have hobserve : (AdapterCall.observe intent).intent.key = (w.plan.tenantId.val, operationId) := hkey
  have hexecute : (AdapterCall.execute intent).intent.key = (w.plan.tenantId.val, operationId) := hkey
  have hobserved := Between.asked h hobserve
  refine Sat.call callAdapter_sat (fun _ _ _ => trivial) ?_
  rintro before s₁ ⟨-, rfl⟩
  have hown : ∀ outcome detailCode ref, Sat (ownReceipt ports intent outcome detailCode ref)
      (s.asked (.observe intent)) (fun _ s' => Between sha w fence operationId p s s')
      (fun _ _ => True) := fun outcome detailCode ref =>
    (ownReceipt_between hobserved.course outcome detailCode ref).mono (fun _ _ h' => hobserved.trans h')
      (fun _ _ h => h)
  split
  · exact hown _ _ _
  · split
    · exact hown _ _ _
    · split
      · exact hown _ _ _
      · refine callAdapter_sat.mono ?_ (fun _ _ _ => trivial)
        rintro receipt s' ⟨-, rfl⟩
        exact hobserved.trans (.asked hobserved.course hexecute)

theorem completeIntent_between {t : State} (h : Between sha w fence operationId p s t)
    (claim : EffectClaimRecord) (receipt : ActionReceipt) :
    Sat (completeIntent sha ports claim receipt) t
      (fun _ s' => Between sha w fence operationId p s s') (fun _ _ => True) := by
  show Sat (now ports >>= _) t _ _
  refine Sat.call (now_sat t) (fun _ _ h => h.elim) ?_
  rintro time t' rfl
  have htick : Between sha w fence operationId p s (t.advance 1) := h.trans (.aside h.course (.tick t 1))
  have houtcome := complete_outcome sha (t.advance 1) receipt claim.claimToken
  unfold Sat
  generalize completeEffect sha receipt claim.claimToken (t.advance 1) = result at houtcome
  cases houtcome with
  | recorded c hc =>
    exact ⟨htick.course.setClaim _ _, htick.passed.trans (.reclaim hc _), htick.commands⟩
  | repeated c hc => exact htick
  | refused e => trivial

/-- A plan that has succeeded takes no request of an execution. -/
theorem request_refused {t : State} (hprojection : t.projections w.plan.key = some p)
    (hstatus : p.status = .succeeded) {commandId : String}
    (hcommand : t.commands (w.plan.tenantId.val, commandId) = none) (version : Int) (actor : Identifier)
    (payload : Fields) :
    Sat (appendNow sha ports w.plan version .executionRequested commandId actor payload) t
      (fun _ _ => False) (fun _ _ => True) := by
  refine appendNow_sat.mono ?_ (fun _ _ _ => trivial)
  intro p' s' happended
  cases happended with
  | replayed hknown => exact hknown hcommand
  | recorded fact hrecorded =>
    obtain ⟨actor', time, hbuilt⟩ := hrecorded.built
    obtain ⟨-, -, htype, -⟩ := buildFact_ok hbuilt
    obtain ⟨-, -, -, hallowed⟩ := (reduceRemediation_ok hrecorded.reduced).next p hprojection
    rw [hstatus, htype] at hallowed
    exact absurd hallowed (by decide)

theorem claimIntent_between (h : Course sha w fence s p) {intent : ActionIntent}
    (hkey : intent.key = (w.plan.tenantId.val, operationId))
    (hunclaimed : s.claims (w.plan.tenantId.val, operationId) = none) (actor : Identifier) :
    Sat (claimIntent sha ports intent actor) s
      (fun record s' => record.receipt = none ∧ Between sha w fence operationId p s s')
      (fun _ _ => True) := by
  have hnone : (s.advance 1).claims intent.key = none := by
    rw [hkey]
    exact hunclaimed
  have htick : Between sha w fence operationId p s (s.advance 1) := .aside h (.tick s 1)
  show Sat (now ports >>= _) s _ _
  refine Sat.call (now_sat s) (fun _ _ h => h.elim) ?_
  rintro time t rfl
  refine (claim_fresh (lt_claimUntil time intent.action) hnone).mono ?_ (fun _ _ h => h.elim)
  rintro record s' ⟨rfl, rfl⟩
  rw [hkey]
  exact ⟨rfl, htick.course.setClaim _ _, htick.passed.trans (.setClaim _), rfl⟩

theorem operation_identifier (h : Usable w s operationId) {suffix : String} (hsuffix : suffix ∈ suffixes) :
    isIdentifier (operationId ++ suffix) = true := by
  have hshort : ∀ x ∈ suffixes, x.toList.length ≤ 11 ∧ x.toList.all identifierChar = true := by
    decide +kernel
  exact isIdentifier_suffix h.identifier h.short (hshort _ hsuffix).1 (hshort _ hsuffix).2

/-- The suffix of the start of a first attempt. -/
def firstStart : String := ":started:" ++ (1 : Int).repr

theorem firstStart_suffix : firstStart ∈ suffixes := @started_suffix 1 (by decide)

theorem command_ne {suffix suffix' : String} (h : suffix ≠ suffix') :
    operationId ++ suffix ≠ operationId ++ suffix' := by
  intro heq
  have hlist := congrArg String.toList heq
  rw [String.toList_append, String.toList_append] at hlist
  exact h (String.toList_inj.mp (List.append_cancel_left hlist))

/-- A new attempt records its start. -/
theorem executionReceipt_course (h : Course sha w fence s p) (hstatus : p.status = .executing)
    {intent : ActionIntent} (hkey : intent.key = (w.plan.tenantId.val, operationId))
    (hidentifier : isIdentifier (operationId ++ firstStart) = true)
    (hfresh : s.commands (w.plan.tenantId.val, operationId ++ firstStart) = none)
    (hresult : s.commands (w.plan.tenantId.val, operationId ++ ":result") = none)
    {record : EffectClaimRecord} (hnone : record.receipt = none) (q : RemediationProjection)
    (actor : Identifier) :
    Sat (executionReceipt sha ports (w.scope q) (w.request action operationId q) actor intent record p) s
      (fun r s' => ∃ p', r.2 = p'.version ∧ Course sha w fence s' p' ∧ p'.status = .executing ∧
        Passed w operationId 1 s s' ∧
        s'.commands (w.plan.tenantId.val, operationId ++ ":result") = none)
      (fun _ _ => True) := by
  unfold executionReceipt
  rw [hnone]
  dsimp only
  have hcommand : (w.request action operationId q).operationId ++ ":started:" ++
      (w.request action operationId q).attempt.repr = operationId ++ firstStart := String.append_assoc
  rw [hcommand]
  refine Sat.call (appendNow_course h firstStart_suffix hfresh hidentifier (by decide)
    (by rw [hstatus]; decide) (by simp [Fields.of]) _) (fun _ _ _ => trivial) ?_
  rintro started s₁ ⟨hcourse₁, hstarted, hpassed₁, -, -, hcommands₁⟩
  refine Sat.call (attemptEffect_between hcourse₁ hkey) (fun _ _ _ => trivial) ?_
  rintro receipt s₂ hbetween₂
  refine Sat.call (completeIntent_between hbetween₂ record receipt) (fun _ _ _ => trivial) ?_
  rintro u s₃ hbetween
  refine (Exec.sat_pure _).mpr ⟨started, rfl, hbetween.course, hstarted, hpassed₁.trans hbetween.passed, ?_⟩
  rw [hbetween.commands, hcommands₁ _ (command_ne (by decide))]
  exact hresult

/-- A result other than a success raises in the end. -/
theorem executionFact_course (h : Course sha w fence s p) (hstatus : p.status = .executing)
    (hidentifier : isIdentifier (operationId ++ ":result") = true)
    (hresult : s.commands (w.plan.tenantId.val, operationId ++ ":result") = none)
    (receipt : ActionReceipt) (actor : Identifier) :
    Sat (match executionFact receipt.outcome with
      | none => Exec.raise ⟨.integrityFailure, "action adapter returned an invalid execute outcome"⟩
      | some factType => do
        let _ ← appendNow sha ports w.plan p.version factType (operationId ++ ":result") actor
          (Fields.of [("effect_receipt_digest", .str (receipt.digest sha).val),
            ("detail_code", .str receipt.detailCode.val)])
        Exec.require (receipt.outcome ≠ .ambiguous)
          ⟨.effectAmbiguous, "external action outcome requires reconciliation"⟩
        Exec.require (receipt.outcome = .succeeded ∨ receipt.outcome = .duplicate)
          ⟨.effectConflict, "external action failed safely"⟩
        pure receipt : Action ActionReceipt) s
      (fun _ s' => ∃ p', Course sha w fence s' p' ∧ p'.status = .succeeded ∧ Passed w operationId 1 s s')
      (fun _ _ => True) := by
  by_cases hgood : receipt.Good
  · rw [executionFact_good hgood]
    refine Sat.call (appendNow_course h result_suffix hresult hidentifier (by decide)
      (by rw [hstatus]; decide) (by simp [Fields.of]) _) (fun _ _ _ => trivial) ?_
    rintro p' s' ⟨hcourse, hsucceeded, hpassed, -⟩
    refine Sat.check (fun _ => trivial) fun _ => Sat.check (fun _ => trivial) fun _ => ?_
    exact ⟨p', hcourse, hsucceeded, hpassed⟩
  · cases executionFact receipt.outcome with
    | none => trivial
    | some factType =>
      refine Sat.skip fun _ s' => Sat.check (fun _ => trivial) fun _ => ?_
      exact Sat.check (fun _ => trivial) fun h => absurd h hgood

/-- **An execution that succeeds found the plan at `PREFLIGHT`**, and recorded three facts. -/
theorem execute_course (hcurrent : w.Current sha ports) (haction : action ∈ w.plan.actions)
    (h : Course sha w fence s p) (hstatus : p.status ∈ [RemediationStatus.preflight, .succeeded])
    (husable : Usable w s operationId) :
    Sat (executeAction sha ports w.identity (w.request action operationId p)) s
      (fun _ s' => p.status = .preflight ∧ ∃ p', Course sha w fence s' p' ∧ p'.status = .succeeded ∧
        Passed w operationId 3 s s')
      (fun _ _ => True) := by
  have hadmitted : p.status ∈ [RemediationStatus.preflight, .executing, .succeeded] := by
    rcases List.mem_cons.mp hstatus with hp | hp
    · rw [hp]
      decide
    · rw [List.mem_singleton.mp hp]
      decide
  refine Sat.call (validatedScope_sat hcurrent h.stored h.quota h.projection h.binds hadmitted haction)
    (fun _ _ h => h.elim) ?_
  rintro scope s₁ ⟨rfl, haside⟩
  refine Sat.call (effectIntent_sat haction husable.identifier false) (fun _ _ h => h.elim) ?_
  rintro intent s₂ ⟨hintends, rfl⟩
  have haside₂ : w.Aside sha s (s₁.advance 1) := haside.trans (.tick s₁ 1)
  have hcourse₂ := h.aside haside₂
  have hunused₂ := husable.toUnused.aside haside₂
  rcases List.mem_cons.mp hstatus with hpreflight | hsucceeded
  swap
  · exact Sat.call (request_refused hcourse₂.projection (List.mem_singleton.mp hsucceeded)
      (hunused₂.commands _ intent_suffix) _ _ _) (fun _ _ _ => trivial) (fun _ _ h => h.elim)
  refine Sat.call (appendNow_course hcourse₂ intent_suffix (hunused₂.commands _ intent_suffix)
    (operation_identifier husable intent_suffix) (by decide) (by rw [hpreflight]; decide)
    (by simp [Fields.of]) _) (fun _ _ _ => trivial) ?_
  rintro requested s₃ ⟨hcourse₃, hrequested, hpassed₃, hclaims₃, -, hcommands₃⟩
  have hunclaimed : s₃.claims (w.plan.tenantId.val, operationId) = none := by
    rw [hclaims₃]
    exact hunused₂.unclaimed
  refine Sat.call (claimIntent_between hcourse₃ hintends.key hunclaimed _) (fun _ _ _ => trivial) ?_
  rintro record s₄ ⟨hnone, hbetween₄⟩
  have hfresh₄ : ∀ suffix ∈ suffixes, suffix ≠ ":intent" →
      s₄.commands (w.plan.tenantId.val, operationId ++ suffix) = none := by
    intro suffix hsuffix hne
    rw [hbetween₄.commands, hcommands₃ _ (command_ne hne)]
    exact hunused₂.commands _ hsuffix
  refine Sat.call (executionReceipt_course hbetween₄.course hrequested hintends.key
    (operation_identifier husable firstStart_suffix) (hfresh₄ _ firstStart_suffix (by decide))
    (hfresh₄ _ result_suffix (by decide)) hnone p _) (fun _ _ _ => trivial) ?_
  rintro ⟨receipt, version⟩ s₅ ⟨started, rfl, hcourse₅, hstarted, hpassed₅, hresult₅⟩
  refine (executionFact_course hcourse₅ hstarted (operation_identifier husable result_suffix) hresult₅
    receipt _).mono ?_ (fun _ _ h => h)
  rintro receipt' s' ⟨p', hcourse, hdone, hpassed⟩
  refine ⟨hpreflight, p', hcourse, hdone, ?_⟩
  exact ((Passed.aside haside₂).trans hpassed₃).trans
    (hbetween₄.passed.trans (hpassed₅.trans hpassed))

end Calls

/-! ## The whole plan -/

section Plan

variable {order : Order} {w : Warrant} {fence : Identifier} {s : State} {p : RemediationProjection}
  {action : ActionDefinition}

theorem Course.request_course (h : Course sha w fence s p) (order : Order)
    (c : PlanCall) : c.request order w.plan s = w.request c.action (c.operation order) p := by
  unfold PlanCall.request Warrant.request
  rw [h.version]

/-- A call that returns has its receipt from the service. -/
theorem receipt_of_call {x : Action ActionReceipt} {r : Result}
    (h : ((x >>= fun receipt => pure (Result.receipt receipt)) s).1 = .ok r) :
    ∃ receipt, x s = (.ok receipt, ((x >>= fun receipt => pure (Result.receipt receipt)) s).2) := by
  revert h
  show (Exec.andThen x _ s).1 = _ → ∃ receipt, x s = (.ok receipt, (Exec.andThen x _ s).2)
  unfold Exec.andThen
  rcases x s with ⟨result, s'⟩
  cases result with
  | ok receipt => exact fun _ => ⟨receipt, rfl⟩
  | error e => exact fun h => by cases h

theorem call_of_receipt {x : Action ActionReceipt} {receipt : ActionReceipt} (h : (x s).1 = .ok receipt) :
    (x >>= fun receipt => pure (Result.receipt receipt)) s = (.ok (.receipt receipt), (x s).2) := by
  revert h
  show _ → Exec.andThen x _ s = _
  unfold Exec.andThen
  rcases x s with ⟨result, s'⟩
  cases result with
  | ok receipt' => exact fun h => by rw [Except.ok.inj h]; rfl
  | error e => exact fun h => by cases h

theorem returned_preflight (h : Course sha w fence s p) {r : Result}
    (hok : (carryStep sha ports order w s (.preflight action)).1 = .ok r) :
    ∃ receipt, preflight sha ports w.identity (w.request action (order.preflight action) p) s =
      (.ok receipt, (carryStep sha ports order w s (.preflight action)).2) := by
  have hrequest := h.request_course order (.preflight action)
  unfold carryStep PlanCall.op at hok ⊢
  rw [hrequest] at hok ⊢
  exact receipt_of_call hok

theorem returned_execute (h : Course sha w fence s p) {r : Result}
    (hok : (carryStep sha ports order w s (.execute action)).1 = .ok r) :
    ∃ receipt, executeAction sha ports w.identity (w.request action (order.execute action) p) s =
      (.ok receipt, (carryStep sha ports order w s (.execute action)).2) := by
  have hrequest := h.request_course order (.execute action)
  unfold carryStep PlanCall.op at hok ⊢
  rw [hrequest] at hok ⊢
  exact receipt_of_call hok

/-- The statuses of a plan on the way to its executions. -/
def preflightStatuses : List RemediationStatus := [.approved, .preflight]

theorem Usable.passed {s' : State} {n : Nat} {operationId other : String} (h : Usable w s operationId)
    (hpassed : Passed w other n s s') (hne : operationId ≠ other) : Usable w s' operationId :=
  ⟨hpassed.unused _ hne h.toUnused, h.identifier, h.short⟩

/-- **The preflights of a plan**: two facts for each of them. -/
theorem preflights_course (hcurrent : w.Current sha ports) (hdry : ∀ n intent, ∃ receipt,
      ports.dryRun n intent = .ok receipt ∧ receipt.outcome = .dryRunSucceeded)
    (actions : List ActionDefinition) (hactions : ∀ a ∈ actions, a ∈ w.plan.actions)
    (hdistinct : (actions.map order.preflight).Nodup) (h : Course sha w fence s p)
    (hstatus : p.status ∈ preflightStatuses) (husable : ∀ a ∈ actions, Usable w s (order.preflight a))
    (hok : ∀ e ∈ Machine.trace (carryStep sha ports order w) s (actions.map PlanCall.preflight),
      ∃ receipt, e.result = .ok (.receipt receipt)) :
    ∃ s' p', s' = Machine.final (carryStep sha ports order w) s (actions.map PlanCall.preflight) ∧
      Course sha w fence s' p' ∧ (actions = [] ∧ p' = p ∨ p'.status = .preflight) ∧
      (s'.facts w.plan.key).length = (s.facts w.plan.key).length + 2 * actions.length ∧
      ∀ o ∉ actions.map order.preflight, Unused w s o → Unused w s' o := by
  induction actions generalizing s p with
  | nil => exact ⟨s, p, rfl, h, .inl ⟨rfl, rfl⟩, rfl, fun _ _ hunused => hunused⟩
  | cons a actions ih =>
    obtain ⟨hnew, hrest⟩ := List.nodup_cons.mp hdistinct
    obtain ⟨r, hr⟩ := hok _ List.mem_cons_self
    obtain ⟨receipt, hreturned⟩ := returned_preflight h hr
    obtain ⟨p₁, hcourse₁, hstatus₁, hpassed₁⟩ := (preflight_course hcurrent
      (hactions a List.mem_cons_self) h hstatus (husable a List.mem_cons_self) hdry).ok hreturned
    have husable₁ : ∀ b ∈ actions, Usable w _ (order.preflight b) := fun b hb =>
      (husable b (List.mem_cons_of_mem _ hb)).passed hpassed₁ fun heq =>
        hnew (heq ▸ List.mem_map_of_mem hb)
    obtain ⟨s', p', hfinal, hcourse, hstatus', hlength, hunused⟩ := ih
      (fun b hb => hactions b (List.mem_cons_of_mem _ hb)) hrest hcourse₁
      (by rw [hstatus₁]; decide) husable₁ fun e he => hok e (List.mem_cons_of_mem _ he)
    refine ⟨s', p', hfinal, hcourse, .inr ?_, ?_, fun o ho hfree => ?_⟩
    · rcases hstatus' with ⟨-, rfl⟩ | hpreflight
      · exact hstatus₁
      · exact hpreflight
    · rw [hlength, hpassed₁.length, List.length_cons]
      omega
    · have hne : o ≠ order.preflight a := fun heq => ho (heq ▸ List.mem_cons_self)
      exact hunused o (fun hmem => ho (List.mem_cons_of_mem _ hmem)) (hpassed₁.unused o hne hfree)

/-- The plan is approved, and its calls are made under operations of their own. -/
structure Approved (sha : Sha256) (order : Order) (w : Warrant) (s : State) : Prop where
  laws : LedgerLaws sha s
  stored : w.Stored sha s
  quota : w.Quota sha s
  projection : ∃ p, s.projections w.plan.key = some p ∧ w.Binds sha p ∧ p.status = .approved
  distinct : (w.plan.calls.map (PlanCall.operation order)).Nodup
  usable : ∀ c ∈ w.plan.calls, Usable w s (c.operation order)

theorem Approved.course (h : Approved sha order w s) :
    ∃ p, Course sha w p.fenceToken s p ∧ p.status = .approved := by
  obtain ⟨p, hp, hbinds, hstatus⟩ := h.projection
  exact ⟨p, ⟨h.laws, h.stored, h.quota, hp, hbinds, rfl⟩, hstatus⟩

/-- The operations of the preflights differ, and none of them is one of an execution. -/
theorem Approved.apart (h : Approved sha order w s) :
    (w.plan.actions.map order.preflight).Nodup ∧ (w.plan.actions.map order.execute).Nodup ∧
      ∀ a ∈ w.plan.actions, order.execute a ∉ w.plan.actions.map order.preflight := by
  have hdistinct := h.distinct
  unfold RemediationPlan.calls at hdistinct
  rw [List.map_append, List.map_map, List.map_map] at hdistinct
  obtain ⟨hpreflights, hexecutes, hdisjoint⟩ := List.nodup_append.mp hdistinct
  refine ⟨hpreflights, hexecutes, fun a ha hmem => ?_⟩
  exact hdisjoint _ hmem _ (List.mem_map_of_mem (f := PlanCall.operation order ∘ .execute) ha) rfl

/-- After the preflights, when they succeed. -/
theorem Approved.preflighted (h : Approved sha order w s) (hcurrent : w.Current sha ports)
    (hdry : ∀ n intent, ∃ receipt,
      ports.dryRun n intent = .ok receipt ∧ receipt.outcome = .dryRunSucceeded)
    (hok : ∀ e ∈ carryOut sha ports order w s, ∃ receipt, e.result = .ok (.receipt receipt)) :
    ∃ s' p', s' = Machine.final (carryStep sha ports order w) s
        (w.plan.actions.map PlanCall.preflight) ∧
      Course sha w p'.fenceToken s' p' ∧ p'.status = .preflight ∧
      (s'.facts w.plan.key).length = (s.facts w.plan.key).length + 2 * w.plan.actions.length ∧
      ∀ a ∈ w.plan.actions, Usable w s' (order.execute a) := by
  obtain ⟨p, hcourse, hstatus⟩ := h.course
  obtain ⟨hpreflights, -, hapart⟩ := h.apart
  unfold carryOut RemediationPlan.calls at hok
  rw [Machine.trace_append] at hok
  have hmem : ∀ a ∈ w.plan.actions, PlanCall.preflight a ∈ w.plan.calls ∧
      PlanCall.execute a ∈ w.plan.calls := fun a ha =>
    ⟨List.mem_append_left _ (List.mem_map_of_mem ha), List.mem_append_right _ (List.mem_map_of_mem ha)⟩
  obtain ⟨s', p', hfinal, hcourse', hstatus', hlength, hunused⟩ := preflights_course hcurrent hdry
    w.plan.actions (fun _ ha => ha) hpreflights hcourse (by rw [hstatus]; decide)
    (fun a ha => h.usable _ (hmem a ha).1) fun e he => hok e (List.mem_append_left _ he)
  refine ⟨s', p', hfinal, hcourse'.fence ▸ hcourse', ?_, hlength, fun a ha => ?_⟩
  · rcases hstatus' with ⟨hnil, -⟩ | hpreflight
    · have hone := w.plan.actions_ok.1
      rw [hnil] at hone
      exact absurd hone (by decide)
    · exact hpreflight
  · have husable := h.usable _ (hmem a ha).2
    exact ⟨hunused _ (hapart a ha) husable.toUnused, husable.identifier, husable.short⟩

/-- An execution that returns. -/
theorem executed_course (hcurrent : w.Current sha ports) (haction : action ∈ w.plan.actions)
    (h : Course sha w fence s p) (hstatus : p.status ∈ [RemediationStatus.preflight, .succeeded])
    (husable : Usable w s (order.execute action)) {r : Result}
    (hok : (carryStep sha ports order w s (.execute action)).1 = .ok r) :
    p.status = .preflight ∧ ∃ p', Course sha w fence (carryStep sha ports order w s (.execute action)).2 p' ∧
      p'.status = .succeeded ∧
      Passed w (order.execute action) 3 s (carryStep sha ports order w s (.execute action)).2 := by
  obtain ⟨receipt, hreturned⟩ := returned_execute h hok
  exact (execute_course hcurrent haction h hstatus husable).ok hreturned

/-- **A plan that is carried out has one action**, and its five facts fit into the ledger. -/
theorem Approved.carried (h : Approved sha order w s) (hcurrent : w.Current sha ports)
    (hdry : ∀ n intent, ∃ receipt,
      ports.dryRun n intent = .ok receipt ∧ receipt.outcome = .dryRunSucceeded)
    (hok : ∀ e ∈ carryOut sha ports order w s, ∃ receipt, e.result = .ok (.receipt receipt)) :
    w.plan.actions.length = 1 ∧ (s.facts w.plan.key).length + 5 ≤ maxFacts := by
  obtain ⟨s₁, p₁, hfinal, hcourse₁, hstatus₁, hlength₁, husable₁⟩ := h.preflighted hcurrent hdry hok
  obtain ⟨-, hexecutes, -⟩ := h.apart
  have hrun : ∀ e ∈ Machine.trace (carryStep sha ports order w) s₁
      (w.plan.actions.map PlanCall.execute), ∃ receipt, e.result = .ok (.receipt receipt) := by
    intro e he
    unfold carryOut RemediationPlan.calls at hok
    rw [Machine.trace_append, ← hfinal] at hok
    exact hok e (List.mem_append_right _ he)
  have hnonempty := w.plan.actions_ok.1
  cases hactions : w.plan.actions with
  | nil =>
    rw [hactions] at hnonempty
    exact absurd hnonempty (by decide)
  | cons a rest =>
    rw [hactions] at hrun hexecutes hlength₁
    have ha : a ∈ w.plan.actions := by rw [hactions]; exact List.mem_cons_self
    obtain ⟨r, hr⟩ := hrun _ List.mem_cons_self
    obtain ⟨-, p₂, hcourse₂, hstatus₂, hpassed₂⟩ := executed_course hcurrent ha hcourse₁
      (by rw [hstatus₁]; decide) (husable₁ a ha) hr
    cases rest with
    | nil =>
      refine ⟨rfl, ?_⟩
      have hbound := hcourse₂.laws.bounded w.plan.key
      rw [hpassed₂.length, hlength₁, List.length_singleton] at hbound
      exact hbound
    | cons b rest =>
      -- the second execution finds the plan at `SUCCEEDED`
      have hb : b ∈ w.plan.actions := by
        rw [hactions]
        exact List.mem_cons_of_mem _ List.mem_cons_self
      have hne : order.execute b ≠ order.execute a := fun heq =>
        (List.nodup_cons.mp hexecutes).1 (heq ▸ List.mem_cons_self)
      obtain ⟨r', hr'⟩ := hrun _ (List.mem_cons_of_mem _ List.mem_cons_self)
      obtain ⟨hpreflight, -⟩ := executed_course hcurrent hb hcourse₂ (by rw [hstatus₂]; decide)
        ((husable₁ b hb).passed hpassed₂ hne) hr'
      rw [hstatus₂] at hpreflight
      cases hpreflight

/-- The execution of an action as a job. -/
def executionJob (order : Order) (w : Warrant) (action : ActionDefinition) (p : RemediationProjection) :
    Job where
  warrant := w
  action
  request := w.request action (order.execute action) p
  fence := p.fenceToken

/-- **The execution of a preflighted action goes through**, and its success is recorded once. -/
theorem execute_through (hcurrent : w.Current sha ports) (haction : action ∈ w.plan.actions)
    (h : Course sha w p.fenceToken s p) (hstatus : p.status = .preflight)
    (husable : Usable w s (order.execute action)) (hroom : (s.facts w.plan.key).length + 3 ≤ maxFacts)
    (hhonest : ∀ m ∈ (Atomic.execute sha ports w.identity
      (w.request action (order.execute action) p)).marks s, Honest ports m.label m.before) :
    (∃ receipt, (carryStep sha ports order w s (.execute action)).1 = .ok (.receipt receipt)) ∧
    ((carryStep sha ports order w s (.execute action)).2.facts w.plan.key).countP (fun f =>
      f.factType = .executionSucceeded && f.commandId.val = order.execute action ++ ":result") = 1 := by
  have hfits : (executionJob order w action p).Fits sha ports :=
    ⟨hcurrent, haction, rfl, rfl, husable.identifier, husable.short⟩
  have hresult : s.commands (w.plan.tenantId.val, order.execute action ++ ":result") = none :=
    husable.commands _ result_suffix
  have hrecovering : (executionJob order w action p).Recovering sha (s.facts w.plan.key) 0 s := by
    refine ⟨[], p, ⟨h.laws.ledger, h.stored, h.quota, Nat.zero_le 0, fun k _ hk => ?_⟩, .inl ?_⟩
    · show s.commands (_, order.execute action ++ ":started:" ++ _) = none
      rw [String.append_assoc]
      exact husable.commands _ (started_suffix hk)
    · exact
        { projection := h.projection, binds := h.binds, fence := rfl, status := hstatus, version := rfl,
          facts := rfl, intent := husable.commands _ intent_suffix, result := hresult,
          unclaimed := husable.unclaimed, unapplied := husable.unapplied }
  have hgoes := goes_execute hfits hroom Nat.zero_lt_one (by decide) hrecovering
  have hdone := Steps.Along.exec hgoes hhonest
  rw [Atomic.exec_execute] at hdone
  obtain ⟨receipt, starts, p', hok, -, hclosed⟩ := hdone
  have hcall : carryStep sha ports order w s (.execute action) = (.ok (.receipt receipt),
      (executeAction sha ports w.identity (w.request action (order.execute action) p) s).2) := by
    have hrequest := h.request_course order (.execute action)
    unfold carryStep PlanCall.op
    rw [hrequest]
    exact call_of_receipt hok
  rw [hcall]
  refine ⟨⟨receipt, rfl⟩, ?_⟩
  have hnew : ∀ f ∈ s.facts w.plan.key, f.commandId.val ≠ (executionJob order w action p).command ":result" :=
    LedgerLaws.unknown (j := executionJob order w action p) h.laws hresult
  have hcount : (executionJob order w action p).recorded .executionSucceeded ":result"
      (executeAction sha ports w.identity (w.request action (order.execute action) p) s).2 = _ :=
    hclosed.facts.recorded hnew
  rw [List.countP_append, Job.begunMarks, List.countP_cons, countP_starts _ starts (by decide),
    List.countP_singleton] at hcount
  have hone : (executionJob order w action p).recorded .executionSucceeded ":result"
      (executeAction sha ports w.identity (w.request action (order.execute action) p) s).2 = 1 := by
    simpa using hcount
  exact hone

/-- **Which approved plans can be carried out.**  Those with one action, as long as the ledger has room for
    five facts. -/
theorem carried_out_iff (sha : Sha256) (ports : Ports) (order : Order) (w : Warrant)
    (hcurrent : w.Current sha ports) (s : State) (happroved : Approved sha order w s)
    (hdry : ∀ n intent, ∃ receipt,
      ports.dryRun n intent = .ok receipt ∧ receipt.outcome = .dryRunSucceeded)
    (hhonest : ∀ e ∈ carryOut sha ports order w s, ∀ action, e.op = .execute action →
      ∀ m ∈ (Atomic.execute sha ports w.identity (e.op.request order w.plan e.before)).marks e.before,
        Honest ports m.label m.before) :
    CarriedOut sha ports order w s ↔
      w.plan.actions.length = 1 ∧ (s.facts w.plan.key).length + 5 ≤ maxFacts := by
  refine ⟨fun h => happroved.carried hcurrent hdry h.succeeds, fun ⟨hone, hroom⟩ => ?_⟩
  obtain ⟨action, haction⟩ := List.length_eq_one_iff.mp hone
  have hmem : action ∈ w.plan.actions := by rw [haction]; exact List.mem_singleton_self action
  have hcalls : w.plan.calls = [.preflight action, .execute action] := by
    unfold RemediationPlan.calls
    rw [haction]
    rfl
  have husable : ∀ c ∈ [PlanCall.preflight action, .execute action], Usable w s (c.operation order) :=
    fun c hc => happroved.usable c (hcalls ▸ hc)
  obtain ⟨p, hcourse, hstatus⟩ := happroved.course
  -- the preflight
  have hsat := preflight_course hcurrent hmem hcourse (by rw [hstatus]; decide)
    (husable _ List.mem_cons_self) hdry
  have hpreflighted : ∃ receipt s₁ p₁, carryStep sha ports order w s (.preflight action) =
      (.ok (.receipt receipt), s₁) ∧ Course sha w p₁.fenceToken s₁ p₁ ∧ p₁.status = .preflight ∧
      Passed w (order.preflight action) 2 s s₁ := by
    have hrequest := hcourse.request_course order (.preflight action)
    unfold carryStep PlanCall.op
    rw [hrequest]
    rcases hx : preflight sha ports w.identity (w.request action (order.preflight action) p) s with ⟨r, s₁⟩
    cases r with
    | error e => exact absurd (hsat.error hx) (by omega)
    | ok receipt =>
      obtain ⟨p₁, hcourse₁, hstatus₁, hpassed₁⟩ := hsat.ok hx
      refine ⟨receipt, s₁, p₁, ?_, hcourse₁.fence ▸ hcourse₁, hstatus₁, hpassed₁⟩
      exact (call_of_receipt (congrArg Prod.fst hx)).trans (by rw [hx])
  obtain ⟨receipt, s₁, p₁, hcall₁, hcourse₁, hstatus₁, hpassed₁⟩ := hpreflighted
  -- the execution
  have hcarried : carryOut sha ports order w s =
      [⟨s, .preflight action, .ok (.receipt receipt), s₁⟩,
       Machine.entry (carryStep sha ports order w) s₁ (.execute action)] := by
    unfold carryOut
    rw [hcalls]
    simp only [Machine.trace, Machine.entry, hcall₁]
  have hfinal : Machine.final (carryStep sha ports order w) s w.plan.calls =
      (carryStep sha ports order w s₁ (.execute action)).2 := by
    rw [hcalls]
    simp only [Machine.final, hcall₁]
  rw [hcarried] at hhonest
  have hmarks := hhonest _ (List.mem_cons_of_mem _ List.mem_cons_self) action rfl
  rw [show (Machine.entry (carryStep sha ports order w) s₁ (.execute action)).op.request order w.plan
    (Machine.entry (carryStep sha ports order w) s₁ (.execute action)).before = _ from
    hcourse₁.request_course order _] at hmarks
  have hne : order.execute action ≠ order.preflight action := fun heq =>
    happroved.apart.2.2 action hmem (heq ▸ List.mem_map_of_mem hmem)
  obtain ⟨⟨receipt', hreceipt'⟩, hcount⟩ := execute_through hcurrent hmem hcourse₁ hstatus₁
    ((husable _ (List.mem_cons_of_mem _ List.mem_cons_self)).passed hpassed₁ hne)
    (by rw [hpassed₁.length]; omega) hmarks
  refine ⟨fun e he => ?_, fun a ha => ?_⟩
  · rw [hcarried] at he
    rcases List.mem_cons.mp he with rfl | he
    · exact ⟨receipt, rfl⟩
    · rw [List.mem_singleton.mp he]
      exact ⟨receipt', hreceipt'⟩
  · rw [haction] at ha
    rw [List.mem_singleton.mp ha]
    unfold successes
    rw [hfinal]
    exact hcount

end Plan

/-! ## Two worked cases

The same policy and the same ports; the plan has one action, or two. -/

/-- A plan of two actions. -/
def pairPlan : RemediationPlan :=
  { soloPlan with
    actions := [soloAction, { soloAction with actionId := ⟨"b", computed⟩ }], actions_ok := by decide,
    ids_unique := by decide, target_ok := by decide, risk_ok := by decide }

def casePlan : Bool → RemediationPlan
  | false => soloPlan
  | true => pairPlan

/-- The plan is proposed and approved. -/
def caseState (pair : Bool) : State :=
  run .constant (soloPorts 60) (State.start [longPolicy] fun _ => 2) (sampleApproval (casePlan pair) "y")

theorem case_approved (pair : Bool) :
    ((caseState pair).approvals ("t", (approvalIdOf .constant (casePlan pair)).val)).isSome = true := by
  revert pair
  decide +kernel

def caseApproval (pair : Bool) : ActionApprovalRequest :=
  ((caseState pair).approvals ("t", (approvalIdOf .constant (casePlan pair)).val)).get
    (case_approved pair)

def caseWarrant (pair : Bool) : Warrant :=
  ⟨sampleIdentity "x", casePlan pair, caseApproval pair, longPolicy⟩

def caseOrder : Order := ⟨fun a => "p" ++ a.actionId.val, fun a => "e" ++ a.actionId.val⟩

/-- What a warrant needs of the ports, looked up for both cases. -/
theorem case_digests (pair : Bool) :
    (caseApproval pair).planDigest = (casePlan pair).digest .constant ∧
    (caseApproval pair).policySnapshot = longPolicy.snapshot .constant ∧
    (casePlan pair).policySnapshot = longPolicy.snapshot .constant ∧
    (caseApproval pair).expiresAt.instant = 7206000000 ∧
    (∀ k : Nat, k < 201 → refusal longPolicy (casePlan pair) true ⟨(k : Int) * 1000000, 0⟩ = none) := by
  revert pair
  decide +kernel

theorem case_current (pair : Bool) : (caseWarrant pair).Current .constant (soloPorts 60) where
  tenant := by cases pair <;> rfl
  planDigest := (case_digests pair).1
  approvalPolicy := (case_digests pair).2.1
  planPolicy := (case_digests pair).2.2.1
  authorized _ := rfl
  approvalUnexpired n := by
    have hexpiry : (caseApproval pair).expiresAt.instant = 7206000000 := (case_digests pair).2.2.2.1
    show ((min n 200 : Nat) : Int) * 1000000 < (caseApproval pair).expiresAt.instant
    omega
  planUnexpired n := by
    have hexpiry : (casePlan pair).expiresAt.instant = 10000000000 := by cases pair <;> rfl
    show ((min n 200 : Nat) : Int) * 1000000 < (casePlan pair).expiresAt.instant
    omega
  permitted n := (case_digests pair).2.2.2.2 (min n 200) (by omega)

example : (caseWarrant true).plan.actions.length = 2 := by decide +kernel

/-- What the stores hold, looked up for both cases. -/
theorem case_records (pair : Bool) :
    ((caseState pair).plans (casePlan pair).key = some (casePlan pair) ∧
      (caseState pair).policies "t" = some longPolicy ∧
      (caseApproval pair).approvalId.val = (approvalIdOf .constant (casePlan pair)).val ∧
      (∀ item ∈ (caseWarrant pair).decisions (caseState pair), item.disposition ≠ .deny)) ∧
    (∃ p, (caseState pair).projections (casePlan pair).key = some p ∧
      (p.approvalId = some (caseApproval pair).approvalId.val ∧
        p.approvalDigest = some ((caseApproval pair).digest .constant).val) ∧ p.status = .approved ∧
      (caseApproval pair).requirement.quorum ≤ (approvers (exactDecision .constant
        ((caseWarrant pair).scope p)) ((caseWarrant pair).decisions (caseState pair))).length) ∧
    (∀ action ∈ (casePlan pair).actions, ∀ decision, (caseState pair).reservations
      ((caseWarrant pair).reservation .constant action) = some decision → decision.allowed = true) ∧
    ((casePlan pair).actions.countP ((caseWarrant pair).unreserved .constant (caseState pair)) : Int) ≤
      (caseState pair).remaining "t" ∧
    ((caseState pair).facts (casePlan pair).key).length = 4 := by
  revert pair
  decide +kernel

/-- Nothing is known of the operations. -/
theorem case_unused (pair : Bool) :
    ((casePlan pair).calls.map (PlanCall.operation caseOrder)).Nodup ∧
    ∀ o ∈ (casePlan pair).calls.map (PlanCall.operation caseOrder),
      (∀ x ∈ suffixes, (caseState pair).commands ("t", o ++ x) = none) ∧
      ((caseState pair).claims ("t", o)).isNone = true ∧ effectCount ("t", o) (caseState pair).calls = 0 ∧
      isIdentifier o = true ∧ o.toList.length ≤ 117 := by
  revert pair
  decide +kernel

theorem case_ready (pair : Bool) : Approved .constant caseOrder (caseWarrant pair) (caseState pair) := by
  obtain ⟨⟨hplan, hpolicy, hid, hundenied⟩, ⟨p, hp, hbinds, hstatus, hquorum⟩, hallowed, hremaining, -⟩ :=
    case_records pair
  obtain ⟨hdistinct, hunused⟩ := case_unused pair
  have htenant : (casePlan pair).tenantId.val = "t" := by cases pair <;> rfl
  have happroval : (caseState pair).approvals ("t", (caseApproval pair).approvalId.val) =
      some (caseApproval pair) := by
    rw [hid]
    exact (Option.some_get _).symm
  refine ⟨ledgerLaws_services _ _ _, ⟨hplan, ?_, ?_, hundenied, fun _ => hquorum⟩, ⟨hallowed, ?_⟩,
    ⟨p, hp, ⟨hbinds.1, hbinds.2⟩, hstatus⟩, hdistinct, fun c hc => ?_⟩
  · show (caseState pair).approvals ((casePlan pair).tenantId.val, _) = _
    rw [htenant]
    exact happroval
  · show (caseState pair).policies (casePlan pair).tenantId.val = _
    rw [htenant]
    exact hpolicy
  · show _ ≤ (caseState pair).remaining (casePlan pair).tenantId.val
    rw [htenant]
    exact hremaining
  · obtain ⟨hcommands, hclaims, hcalls, hidentifier, hshort⟩ := hunused _ (List.mem_map_of_mem hc)
    refine ⟨⟨?_, ?_, ?_⟩, hidentifier, hshort⟩
    · show ∀ x ∈ suffixes, (caseState pair).commands ((casePlan pair).tenantId.val, _) = none
      rw [htenant]
      exact hcommands
    · show (caseState pair).claims ((casePlan pair).tenantId.val, _) = none
      rw [htenant]
      exact Option.isNone_iff_eq_none.mp hclaims
    · show effectCount ((casePlan pair).tenantId.val, _) (caseState pair).calls = 0
      rw [htenant]
      exact hcalls

theorem case_dryRun (n : Nat) (intent : ActionIntent) :
    ∃ receipt, (soloPorts 60).dryRun n intent = .ok receipt ∧ receipt.outcome = .dryRunSucceeded :=
  ⟨_, rfl, rfl⟩

example : (casePlan false).calls.length = 2 ∧ (casePlan true).calls.length = 4 := by decide +kernel

/-- The plan with one action is carried out. -/
theorem carried_out_sample :
    (caseWarrant false).plan.actions.length = 1 ∧
      CarriedOut .constant (soloPorts 60) caseOrder (caseWarrant false) (caseState false) := by
  have hhonest : ∀ e ∈ carryOut .constant (soloPorts 60) caseOrder (caseWarrant false) (caseState false),
      ∀ m ∈ (Atomic.execute .constant (soloPorts 60) (caseWarrant false).identity
        (e.op.request caseOrder (caseWarrant false).plan e.before)).marks e.before,
        Honest (soloPorts 60) m.label m.before := by decide +kernel
  have hlength : ((caseState false).facts (casePlan false).key).length = 4 :=
    (case_records false).2.2.2.2
  refine ⟨rfl, (carried_out_iff .constant (soloPorts 60) caseOrder (caseWarrant false) (case_current false)
    (caseState false) (case_ready false) case_dryRun fun e he _ _ => hhonest e he).mpr ⟨rfl, ?_⟩⟩
  show ((caseState false).facts (casePlan false).key).length + 5 ≤ 500
  omega

/-- **What goes wrong with two actions.**  Both are preflighted, the first is executed, and the second is
    refused, although the plan is approved, its scope is valid and the adapter does what it is asked. -/
theorem second_action_refused :
    (caseWarrant true).plan.actions.length = 2 ∧
    (caseWarrant true).Current .constant (soloPorts 60) ∧
    Approved .constant caseOrder (caseWarrant true) (caseState true) ∧
    (carryOut .constant (soloPorts 60) caseOrder (caseWarrant true) (caseState true)).map
      (fun e => e.result.toOption.isSome) = [true, true, true, false] ∧
    (carryOut .constant (soloPorts 60) caseOrder (caseWarrant true) (caseState true)).getLast?.map
      (fun e => match e.result with | .ok _ => "" | .error e => e.message) =
      some "illegal remediation transition succeeded->executing" ∧
    ¬CarriedOut .constant (soloPorts 60) caseOrder (caseWarrant true) (caseState true) := by
  have hresults : (carryOut .constant (soloPorts 60) caseOrder (caseWarrant true) (caseState true)).map
      (fun e => e.result.toOption.isSome) = [true, true, true, false] := by decide +kernel
  refine ⟨rfl, case_current true, case_ready true, hresults, by decide +kernel, fun h => ?_⟩
  have hall : ∀ b ∈ (carryOut .constant (soloPorts 60) caseOrder (caseWarrant true) (caseState true)).map
      (fun e => e.result.toOption.isSome), b = true := by
    intro b hb
    obtain ⟨e, he, rfl⟩ := List.mem_map.mp hb
    obtain ⟨receipt, hreceipt⟩ := h.succeeds e he
    rw [hreceipt]
    rfl
  rw [hresults] at hall
  exact absurd (hall false (by decide)) (by decide)

end Remediation

end Aegis
