/-
  WHAT LETS A CALL THROUGH.

  `Effects` says what a call may do; here is the other direction, when it DOES it.  A `Warrant` names who
  acts, the plan, its approval and the policy.  As long as the warrant is `Current` (the ports allow it
  at every moment) and `Stored` (the stores still hold it), the scope check passes; a NEW command that
  moves the status along `allowed` is recorded, and a known one is answered from the projection.

  The rules are in the crash judgment `Along`, so that they say what holds after each single call too.
  The crash invariant `I` is only asked to survive `Aside`: steps that touch the clock and the quota.
-/
import Mathlib
import Aegis.Remediation.DryRun
import Aegis.Remediation.Atomic
import Aegis.Remediation.Claims

namespace Aegis

namespace Remediation

open Steps (Along)
open Atomic (PortCall Program)

variable {sha : Sha256} {ports : Ports}

/-! ## Warrants -/

/-- Who acts, on which plan, under which approval and policy. -/
structure Warrant where
  identity : IdentityContext
  plan : RemediationPlan
  approval : ActionApprovalRequest
  policy : ActionPolicy

def Warrant.scope (w : Warrant) (projection : RemediationProjection) : EffectScope :=
  { plan := w.plan, approval := w.approval, policy := w.policy, projection }

/-- Digests agree, and at every moment the ports allow the effect: authorized, unexpired, permitted. -/
structure Warrant.Current (sha : Sha256) (ports : Ports) (w : Warrant) : Prop where
  tenant : w.plan.tenantId = w.identity.tenantId
  planDigest : w.approval.planDigest = w.plan.digest sha
  approvalPolicy : w.approval.policySnapshot = w.policy.snapshot sha
  planPolicy : w.plan.policySnapshot = w.policy.snapshot sha
  authorized : ∀ n, (ports.authorize n w.identity .effectExecute .high).1 = true
  approvalUnexpired : ∀ n, ports.clock n < w.approval.expiresAt
  planUnexpired : ∀ n, ports.clock n < w.plan.expiresAt
  permitted : ∀ n, refusal w.policy w.plan true (ports.clock n) = none

/-- The decisions on the approval of a warrant. -/
def Warrant.decisions (w : Warrant) (s : State) : List ApprovalDecision :=
  s.decisions (w.plan.tenantId.val, w.approval.approvalId.val)

/-- The stores hold the warrant, and its quorum. -/
structure Warrant.Stored (sha : Sha256) (w : Warrant) (s : State) : Prop where
  plan : s.plans w.plan.key = some w.plan
  approval : s.approvals (w.plan.tenantId.val, w.approval.approvalId.val) = some w.approval
  policy : s.policies w.plan.tenantId.val = some w.policy
  undenied : ∀ item ∈ w.decisions s, item.disposition ≠ .deny
  quorum : ∀ projection, w.approval.requirement.quorum ≤
    (approvers (exactDecision sha (w.scope projection)) (w.decisions s)).length

/-- The projection names the approval of the warrant. -/
structure Warrant.Binds (sha : Sha256) (w : Warrant) (projection : RemediationProjection) : Prop where
  approvalId : projection.approvalId = some w.approval.approvalId.val
  approvalDigest : projection.approvalDigest = some (w.approval.digest sha).val

/-! ## The quota -/

/-- The key of the reservation of an action. -/
def Warrant.reservation (sha : Sha256) (w : Warrant) (action : ActionDefinition) : String × String :=
  (w.plan.tenantId.val, (reservationOf sha w.plan action.actionId.val).val)

/-- The action has no reservation yet. -/
def Warrant.unreserved (sha : Sha256) (w : Warrant) (s : State) (action : ActionDefinition) : Bool :=
  (s.reservations (w.reservation sha action)).isNone

/-- There is quota for every action of the plan: reserved already, or still to be reserved. -/
structure Warrant.Quota (sha : Sha256) (w : Warrant) (s : State) : Prop where
  allowed : ∀ action ∈ w.plan.actions, ∀ decision,
    s.reservations (w.reservation sha action) = some decision → decision.allowed = true
  remaining : (w.plan.actions.countP (w.unreserved sha s) : Int) ≤ s.remaining w.plan.tenantId.val

/-- The steps that leave everything but the clock and the quota, which stays enough. -/
structure Warrant.Aside (sha : Sha256) (w : Warrant) (s s' : State) : Prop where
  ledger : SameLedger s s'
  plans : s'.plans = s.plans
  approvals : s'.approvals = s.approvals
  policies : s'.policies = s.policies
  decisions : s'.decisions = s.decisions
  claims : s'.claims = s.claims
  calls : s'.calls = s.calls
  quota : w.Quota sha s → w.Quota sha s'

section Aside

variable {w : Warrant} {s s' s'' : State}

theorem Warrant.Aside.refl (s : State) : w.Aside sha s s :=
  ⟨⟨rfl, rfl, rfl⟩, rfl, rfl, rfl, rfl, rfl, rfl, id⟩

theorem Warrant.Aside.trans (h : w.Aside sha s s') (h' : w.Aside sha s' s'') : w.Aside sha s s'' where
  ledger := ⟨h'.ledger.facts.trans h.ledger.facts, h'.ledger.commands.trans h.ledger.commands,
    h'.ledger.projections.trans h.ledger.projections⟩
  plans := h'.plans.trans h.plans
  approvals := h'.approvals.trans h.approvals
  policies := h'.policies.trans h.policies
  decisions := h'.decisions.trans h.decisions
  claims := h'.claims.trans h.claims
  calls := h'.calls.trans h.calls
  quota := h'.quota ∘ h.quota

/-- A question of the clock or of the authorization port. -/
theorem Warrant.Aside.tick (s : State) (n : Nat) : w.Aside sha s (s.advance n) :=
  ⟨⟨rfl, rfl, rfl⟩, rfl, rfl, rfl, rfl, rfl, rfl, fun h => ⟨h.allowed, h.remaining⟩⟩

theorem Warrant.Stored.aside (h : w.Stored sha s) (ha : w.Aside sha s s') : w.Stored sha s' := by
  have hdecisions : w.decisions s' = w.decisions s := congrFun ha.decisions _
  exact
    { plan := by rw [ha.plans]; exact h.plan
      approval := by rw [ha.approvals]; exact h.approval
      policy := by rw [ha.policies]; exact h.policy
      undenied := by rw [hdecisions]; exact h.undenied
      quorum := by rw [hdecisions]; exact h.quorum }

end Aside

/-- The state after a reservation. -/
def State.reserve (s : State) (key : String × String) (decision : EffectQuotaDecision)
    (remaining : String → Int) : State :=
  { s with reservations := Function.update s.reservations key (some decision), remaining }

section Reserve

variable {w : Warrant} {s : State} {action : ActionDefinition}

/-- One more reservation leaves fewer actions without one. -/
theorem Warrant.unreserved_lt (haction : action ∈ w.plan.actions)
    (hnone : s.reservations (w.reservation sha action) = none) (decision : EffectQuotaDecision)
    (remaining : String → Int) :
    w.plan.actions.countP (w.unreserved sha (s.reserve (w.reservation sha action) decision remaining))
      < w.plan.actions.countP (w.unreserved sha s) := by
  have hsub : ∀ a, w.unreserved sha (s.reserve (w.reservation sha action) decision remaining) a = true →
      w.unreserved sha s a = true ∧ a ≠ action := by
    intro a ha
    have ha' : (Function.update s.reservations (w.reservation sha action) (some decision)
      (w.reservation sha a)).isNone = true := ha
    by_cases hkey : w.reservation sha a = w.reservation sha action
    · rw [hkey, Function.update_self] at ha'
      cases ha'
    · rw [Function.update_of_ne hkey] at ha'
      exact ⟨ha', fun heq => hkey (by rw [heq])⟩
  have hold : w.unreserved sha s action = true := by
    unfold Warrant.unreserved
    rw [hnone]
    rfl
  obtain ⟨xs, ys, hsplit⟩ := List.append_of_mem haction
  rw [hsplit, List.countP_append, List.countP_append, List.countP_cons, List.countP_cons, if_pos hold,
    if_neg fun hnew => (hsub action hnew).2 rfl]
  have hxs := List.countP_mono_left fun a (_ : a ∈ xs) ha => (hsub a ha).1
  have hys := List.countP_mono_left fun a (_ : a ∈ ys) ha => (hsub a ha).1
  omega

theorem Warrant.Quota.reserve (h : w.Quota sha s) (haction : action ∈ w.plan.actions)
    (hnone : s.reservations (w.reservation sha action) = none) {decision : EffectQuotaDecision}
    (hdecision : decision.allowed = true) {remaining : String → Int}
    (hremaining : remaining w.plan.tenantId.val = s.remaining w.plan.tenantId.val - 1) :
    w.Quota sha (s.reserve (w.reservation sha action) decision remaining) := by
  constructor
  · intro a ha d hd
    have hd' : Function.update s.reservations (w.reservation sha action) (some decision)
      (w.reservation sha a) = some d := hd
    by_cases hkey : w.reservation sha a = w.reservation sha action
    · rw [hkey, Function.update_self] at hd'
      rw [← Option.some.inj hd']
      exact hdecision
    · rw [Function.update_of_ne hkey] at hd'
      exact h.allowed a ha d hd'
  · show _ ≤ remaining w.plan.tenantId.val
    have hlt := Warrant.unreserved_lt haction hnone decision remaining
    have hold := h.remaining
    omega

/-- An action of the plan gets its reservation. -/
theorem reserveQuota_sat (haction : action ∈ w.plan.actions) (hquota : w.Quota sha s) :
    Exec.Sat (reserveQuota w.plan.tenantId.val (reservationOf sha w.plan action.actionId.val) 1) s
      (fun decision s' => decision.allowed = true ∧ w.Aside sha s s') (fun _ _ => False) := by
  unfold reserveQuota
  refine Exec.Sat.check (fun h => h le_rfl) fun _ => ?_
  rw [Exec.sat_bind, Exec.sat_read]
  dsimp only
  cases hknown : s.reservations (w.reservation sha action) with
  | some existing =>
    have hfound := hknown
    unfold Warrant.reservation at hfound
    rw [hfound]
    exact ⟨hquota.allowed action haction existing hknown, .refl s⟩
  | none =>
    have hone : ((1 : Nat) : Int) ≤ s.remaining w.plan.tenantId.val := by
      have hlt := Warrant.unreserved_lt (w := w) haction hknown
        ⟨true, reservationOf sha w.plan action.actionId.val, 1, ""⟩ s.remaining
      have hremaining := hquota.remaining
      omega
    have hfound := hknown
    unfold Warrant.reservation at hfound
    rw [hfound, decide_eq_true hone]
    refine ⟨rfl, ⟨rfl, rfl, rfl⟩, rfl, rfl, rfl, rfl, rfl, rfl, fun h => ?_⟩
    exact h.reserve haction hknown rfl (Function.update_self _ _ _)

end Reserve

/-! ## Intents -/

/-- What a claim is bound to. -/
def Warrant.binding (sha : Sha256) (w : Warrant) (action : ActionDefinition) (fence : Identifier) :
    Digest × Digest × Digest × Digest × Digest × Identifier :=
  (action.digest sha, w.plan.digest sha, w.approval.digest sha, w.policy.digest sha,
   action.target.resourceFingerprint, fence)

/-- The intent of an action under a warrant. -/
structure Warrant.Intends (sha : Sha256) (w : Warrant) (action : ActionDefinition)
    (fence : Identifier) (request : EffectRequest) (dryRun : Bool) (intent : ActionIntent) : Prop where
  tenant : intent.tenantId = w.plan.tenantId
  subject : intent.action = action
  operation : intent.operationId.val = request.operationId
  attempt : intent.attempt = request.attempt.toNat
  fenceToken : intent.fenceToken = fence
  binding : intent.binding sha = w.binding sha action fence
  mode : intent.dryRun = dryRun

theorem find_action {actions : List ActionDefinition} (hunique : (actions.map (·.actionId)).Nodup)
    {action : ActionDefinition} (haction : action ∈ actions) :
    actions.find? (fun a => a.actionId.val == action.actionId.val) = some action := by
  induction actions with
  | nil => cases haction
  | cons first rest ih =>
    obtain ⟨hnew, hrest⟩ := List.nodup_cons.mp hunique
    rcases List.mem_cons.mp haction with rfl | hmem
    · exact List.find?_cons_of_pos (beq_self_eq_true _)
    · rw [List.find?_cons_of_neg, ih hrest hmem]
      intro heq
      have hsame : first.actionId = action.actionId := Subtype.ext (eq_of_beq heq)
      exact hnew (List.mem_map.mpr ⟨action, hmem, hsame.symm⟩)

/-- An intent can be built for an action of the plan, under an operation and an attempt in range. -/
theorem buildIntent_total (w : Warrant) {projection : RemediationProjection} {request : EffectRequest}
    {action : ActionDefinition} (haction : action ∈ w.plan.actions)
    (hid : request.actionId = action.actionId.val) (hoperation : isIdentifier request.operationId = true)
    (hattempt : 1 ≤ request.attempt ∧ request.attempt ≤ 16) (dryRun : Bool) (time : Datetime) :
    ∃ intent, buildIntent sha (w.scope projection) request dryRun time = .ok intent ∧
      w.Intends sha action projection.fenceToken request dryRun intent := by
  unfold buildIntent
  have hfind : (w.scope projection).plan.actions.find? (fun a => a.actionId.val == request.actionId)
      = some action := by
    rw [hid]
    exact find_action w.plan.ids_unique haction
  rw [hfind]
  dsimp only
  rw [Identifier.parse_of hoperation]
  exact ⟨_, dif_pos hattempt, rfl, rfl, rfl, rfl, rfl, rfl, rfl⟩

/-! ## Projections -/

/-- A projection one fact further: the same plan and approval. -/
structure Successor (p p' : RemediationProjection) (factType : RemediationFactType) : Prop where
  status : p'.status = factType.status
  version : p'.version = p.version + 1
  approvalId : p'.approvalId = p.approvalId
  approvalDigest : p'.approvalDigest = p.approvalDigest
  fence : p'.fenceToken = p.fenceToken

theorem Successor.binds {w : Warrant} {p p' : RemediationProjection} {factType : RemediationFactType}
    (h : Successor p p' factType) (hp : w.Binds sha p) : w.Binds sha p' :=
  ⟨h.approvalId.trans hp.approvalId, h.approvalDigest.trans hp.approvalDigest⟩

theorem successor_of_reduce {p p' : RemediationProjection} {fact : RemediationFact}
    (h : reduceRemediation (some p) fact = .ok p') (hkind : fact.factType ≠ .approvalRequested) :
    Successor p p' fact.factType := by
  have hreduced := reduceRemediation_ok h
  obtain ⟨hsequence, hversion, -, -⟩ := hreduced.next p rfl
  simp only [reduceRemediation] at h
  split at h
  · cases h
  · split at h
    · cases h
    · obtain ⟨u, -, h⟩ := except_bind_ok.mp h
      obtain ⟨approval, hbound, h⟩ := except_bind_ok.mp h
      unfold boundApproval at hbound
      rw [if_neg hkind] at hbound
      obtain rfl := Except.ok.inj hbound
      have hfields := Except.ok.inj h
      exact ⟨hreduced.status, hversion.trans hsequence, by rw [← hfields], by rw [← hfields],
        by rw [← hfields]⟩

/-- What lets a new fact into the ledger of a plan. -/
structure Admits (s : State) (plan : RemediationPlan) (p : RemediationProjection)
    (expectedVersion : Int) (factType : RemediationFactType) (commandId : String) (payload : Fields) :
    Prop where
  ledger : LedgerOk s
  projection : s.projections plan.key = some p
  command : s.commands (plan.tenantId.val, commandId) = none
  identifier : isIdentifier commandId = true
  room : (s.facts plan.key).length < maxFacts
  version : expectedVersion = p.version
  kind : factType ≠ .approvalRequested
  move : p.status ∉ terminal ∧ factType.status ∈ allowed p.status
  payload : payload.entries.length ≤ 32

/-- **A new fact is recorded.** -/
theorem append_admitted {s : State} {plan : RemediationPlan} {p : RemediationProjection}
    {expectedVersion : Int} {factType : RemediationFactType} {commandId : String} {payload : Fields}
    (h : Admits s plan p expectedVersion factType commandId payload) (actor : Identifier)
    (time : Datetime) :
    Exec.Sat (append sha plan.tenantId.val plan.planId.val expectedVersion factType commandId actor.val
      time payload) s
      (fun p' s' => ∃ fact, Recorded sha s plan.key factType commandId payload fact p' ∧
        Successor p p' factType ∧ s' = s.record plan.key (plan.tenantId.val, commandId)
          (plan.planId.val, commandFingerprint sha factType payload) fact p')
      (fun _ _ => False) := by
  obtain ⟨hversion, hdigest⟩ := h.ledger.current plan.key p h.projection
  refine (append_recorded h.command h.room ?_ (buildFact_total _ _ _ _ plan.tenantId.property
    plan.planId.property h.identifier actor.property h.payload) ?_).mono ?_ (fun _ _ h => h)
  · rw [h.version, hversion]
    rfl
  · intro fact hfact
    obtain ⟨hsequence, hprevious, hfactType, -⟩ := buildFact_ok hfact
    show ∃ p', reduceRemediation (s.projections plan.key) fact = .ok p'
    rw [h.projection]
    refine reduceRemediation_total (by rw [hsequence, hversion]; rfl) (hprevious.trans hdigest.symm)
      h.move.1 (by rw [hfactType]; exact h.move.2) ?_
    rw [hfactType]
    exact h.kind
  · rintro p' s' ⟨fact, hrecorded, rfl⟩
    refine ⟨fact, hrecorded, ?_, rfl⟩
    obtain ⟨actor', time', hbuilt⟩ := hrecorded.built
    obtain ⟨-, -, hfactType, -⟩ := buildFact_ok hbuilt
    have hreduced := hrecorded.reduced
    rw [show s.projections (plan.tenantId.val, plan.planId.val) = some p from h.projection] at hreduced
    have hnext := successor_of_reduce hreduced (by rw [hfactType]; exact h.kind)
    rw [hfactType] at hnext
    exact hnext

/-- A known command is answered from the projection. -/
theorem append_known {s : State} {plan : RemediationPlan} {p : RemediationProjection}
    {factType : RemediationFactType} {commandId : String} {payload : Fields}
    (hcommand : s.commands (plan.tenantId.val, commandId) =
      some (plan.planId.val, commandFingerprint sha factType payload))
    (hprojection : s.projections plan.key = some p) (expectedVersion : Int) (actor : Identifier)
    (time : Datetime) :
    Exec.Sat (append sha plan.tenantId.val plan.planId.val expectedVersion factType commandId actor.val
      time payload) s (fun p' s' => p' = p ∧ s' = s) (fun _ _ => False) := by
  have hprojection' : s.projections (plan.tenantId.val, plan.planId.val) = some p := hprojection
  unfold append
  rw [Exec.sat_bind, Exec.sat_read]
  dsimp only
  rw [hcommand]
  refine Exec.Sat.check (fun h => h rfl) fun _ => ?_
  rw [hprojection']
  exact ⟨rfl, rfl⟩

/-! ## The scope check passes -/

section Scope

variable {C : PortCall → State → Prop} {I : State → Prop} {α β : Type}
  {R : Except Error β → State → Prop} {w : Warrant} {s : State}
  (hI : ∀ s s', w.Aside sha s s' → I s → I s')

theorem along_look {g : State → α} {f : α → Program β} (hs : I s) (hf : Along C I R (f (g s)) s) :
    Along C I R (Atomic.look g >>= f) s := fun _ => ⟨hs, hf⟩

theorem along_scopeRecords (hcurrent : w.Current sha ports) (hstored : w.Stored sha s)
    {projection : RemediationProjection} (hprojection : s.projections w.plan.key = some projection)
    (hbinds : w.Binds sha projection) {action : ActionDefinition} (haction : action ∈ w.plan.actions)
    {f : EffectScope → Program β} (hs : I s) (hf : Along C I R (f (w.scope projection)) s) :
    Along C I R (Atomic.scopeRecords w.identity w.plan.planId.val action.actionId.val >>= f) s := by
  refine Along.bind (Q := fun r s' => r = .ok (w.scope projection) ∧ s' = s) ?_ (fun e _ h => ?_) ?_
  · unfold Atomic.scopeRecords
    rw [← hcurrent.tenant]
    refine along_look hs (along_look hs ?_)
    have hplan : s.plans (w.plan.tenantId.val, w.plan.planId.val) = some w.plan := hstored.plan
    have hprojection' : s.projections (w.plan.tenantId.val, w.plan.planId.val) = some projection :=
      hprojection
    rw [hplan, hprojection']
    dsimp only
    rw [hbinds.approvalId]
    refine Along.check (fun h => absurd ⟨action, haction, rfl⟩ h) fun _ => along_look hs ?_
    rw [hstored.approval]
    refine along_look hs ?_
    rw [hstored.policy]
    exact ⟨rfl, rfl⟩
  · cases h.1
  · rintro scope s' ⟨hscope, rfl⟩
    rw [Except.ok.inj hscope]
    exact hf

include hI

theorem along_clock {f : Datetime → Program β} (hs : I s)
    (hf : Along C I R (f (ports.clock s.tick)) (s.advance 1)) :
    Along C I R (Atomic.clockNow ports >>= f) s := fun _ => ⟨hI _ _ (.tick s 1) hs, hf⟩

theorem along_authorized (hcurrent : w.Current sha ports) {f : Unit → Program β} (hs : I s)
    (hf : Along C I R (f ()) (s.advance 1)) :
    Along C I R (Atomic.authorized ports w.identity .effectExecute .high >>= f) s := by
  refine Along.atom fun _ => ?_
  unfold authorize
  rw [Exec.sat_bind, Exec.sat_read, Exec.sat_bind, Exec.sat_modify]
  dsimp only
  rw [Exec.require_pos (hcurrent.authorized s.tick)]
  exact ⟨hI _ _ (.tick s 1) hs, hf⟩

theorem along_requireActionPolicy (hcurrent : w.Current sha ports) (hstored : w.Stored sha s)
    {f : ActionPolicy → Program β} (hs : I s) (hf : Along C I R (f w.policy) (s.advance 1)) :
    Along C I R (Atomic.requireActionPolicy ports w.plan true >>= f) s := by
  refine Along.bind (Q := fun r s' => r = .ok w.policy ∧ s' = s.advance 1) ?_ (fun e _ h => ?_) ?_
  · refine along_look hs (along_clock hI hs ?_)
    rw [hstored.policy]
    dsimp only
    rw [hcurrent.permitted s.tick]
    exact ⟨rfl, rfl⟩
  · cases h.1
  · rintro policy s' ⟨hpolicy, rfl⟩
    rw [Except.ok.inj hpolicy]
    exact hf

theorem along_checkScope (hcurrent : w.Current sha ports) (hstored : w.Stored sha s)
    {projection : RemediationProjection} (hbinds : w.Binds sha projection)
    {statuses : List RemediationStatus} (hstatus : projection.status ∈ statuses)
    {f : Unit → Program β} (hs : I s) (hf : Along C I R (f ()) (s.advance 2)) :
    Along C I R
      (Atomic.checkScope sha ports w.identity (w.scope projection) statuses >>= f) s := by
  refine Along.bind (Q := fun r s' => r = .ok () ∧ s' = s.advance 2) ?_ (fun e _ h => ?_) ?_
  · have hexact := And.intro hcurrent.planDigest (And.intro hbinds.approvalDigest.symm
      (And.intro hcurrent.approvalPolicy hcurrent.planPolicy))
    refine Along.check (fun h => absurd hexact h) fun _ => along_clock hI hs ?_
    have hs' : I (s.advance 1) := hI _ _ (.tick s 1) hs
    refine Along.check (fun h => absurd (hcurrent.approvalUnexpired _) h) fun _ => ?_
    refine along_clock hI hs' ?_
    refine Along.check (fun h => absurd (hcurrent.planUnexpired _) h) fun _ => ?_
    refine along_look (hI _ _ (.tick _ 1) hs') ?_
    rw [← hcurrent.tenant]
    refine Along.check (fun h => absurd hstored.undenied h) fun _ => ?_
    refine Along.check (fun h => absurd (hstored.quorum projection) h) fun _ => ?_
    have hin : (w.scope projection).projection.status ∈ statuses := hstatus
    rw [Steps.require_pos hin]
    exact ⟨rfl, rfl⟩
  · cases h.1
  · rintro u s' ⟨-, rfl⟩
    exact hf

/-- **The scope check passes**, and leaves everything but the clock and the quota. -/
theorem along_validatedScope_ends (hcurrent : w.Current sha ports) (hstored : w.Stored sha s)
    (hquota : w.Quota sha s) {projection : RemediationProjection}
    (hprojection : s.projections w.plan.key = some projection) (hbinds : w.Binds sha projection)
    {statuses : List RemediationStatus} (hstatus : projection.status ∈ statuses)
    {action : ActionDefinition} (haction : action ∈ w.plan.actions) (hs : I s) :
    Along C I (fun r s' => r = .ok (w.scope projection) ∧ w.Aside sha s s')
      (Atomic.validatedScope sha ports w.identity w.plan.planId.val action.actionId.val statuses) s := by
  have haside : ∀ n, w.Aside sha s (s.advance n) := fun n => .tick s n
  have hs' : ∀ n, I (s.advance n) := fun n => hI _ _ (haside n) hs
  refine along_authorized hI hcurrent hs ?_
  refine along_scopeRecords hcurrent (hstored.aside (haside 1)) hprojection hbinds haction
    (hs' 1) ?_
  refine along_checkScope hI hcurrent (hstored.aside (haside 1)) hbinds hstatus (hs' 1) ?_
  refine along_requireActionPolicy hI hcurrent (hstored.aside (haside 3)) (hs' 3) ?_
  refine along_clock hI (hs' 4) ?_
  refine Along.atom fun _ => (reserveQuota_sat haction ((haside 5).quota hquota)).mono ?_
    (fun _ _ h => h.elim)
  rintro quota s' ⟨hallowed, hreserved⟩
  have hdone := (haside 5).trans hreserved
  refine ⟨hI _ _ hdone hs, ?_⟩
  exact Along.check (fun h => absurd hallowed h) fun _ => ⟨rfl, hdone⟩

/-- The scope check at the head of a call. -/
theorem along_validatedScope (hcurrent : w.Current sha ports) (hstored : w.Stored sha s)
    (hquota : w.Quota sha s) {projection : RemediationProjection}
    (hprojection : s.projections w.plan.key = some projection) (hbinds : w.Binds sha projection)
    {statuses : List RemediationStatus} (hstatus : projection.status ∈ statuses)
    {action : ActionDefinition} (haction : action ∈ w.plan.actions)
    {f : EffectScope → Program β} (hs : I s)
    (hf : ∀ s', w.Aside sha s s' → Along C I R (f (w.scope projection)) s') :
    Along C I R (Atomic.validatedScope sha ports w.identity w.plan.planId.val action.actionId.val
      statuses >>= f) s := by
  refine Along.bind (along_validatedScope_ends hI hcurrent hstored hquota hprojection hbinds hstatus
    haction hs) (fun e _ h => ?_) ?_
  · cases h.1
  · rintro scope s' ⟨hscope, haside⟩
    rw [Except.ok.inj hscope]
    exact hf s' haside

/-- The intent is built. -/
theorem along_effectIntent {projection : RemediationProjection} {request : EffectRequest}
    {action : ActionDefinition} (haction : action ∈ w.plan.actions)
    (hid : request.actionId = action.actionId.val) (hoperation : isIdentifier request.operationId = true)
    (hattempt : 1 ≤ request.attempt ∧ request.attempt ≤ 16) {dryRun : Bool}
    {f : ActionIntent → Program β} (hs : I s)
    (hf : ∀ intent, w.Intends sha action projection.fenceToken request dryRun intent →
      Along C I R (f intent) (s.advance 1)) :
    Along C I R (Atomic.effectIntent sha ports (w.scope projection) request dryRun >>= f) s := by
  have htotal : ∃ intent, buildIntent sha (w.scope projection) request dryRun (ports.clock s.tick) =
      .ok intent ∧ w.Intends sha action projection.fenceToken request dryRun intent :=
    buildIntent_total w haction hid hoperation hattempt dryRun _
  obtain ⟨intent, hbuilt, hintends⟩ := htotal
  refine fun _ => ⟨hI _ _ (.tick s 1) hs, ?_⟩
  show Along C I R (Steps.done (buildIntent sha (w.scope projection) request dryRun
    (ports.clock s.tick)) >>= f) (s.advance 1)
  rw [hbuilt]
  exact hf intent hintends

/-- A new fact is recorded. -/
theorem along_appendNow {p : RemediationProjection} {expectedVersion : Int}
    {factType : RemediationFactType} {commandId : String} {payload : Fields} {actor : Identifier}
    (h : Admits s w.plan p expectedVersion factType commandId payload)
    {f : RemediationProjection → Program β} (hs : I s)
    (hf : ∀ fact p', Recorded sha (s.advance 1) w.plan.key factType commandId payload fact p' →
      Successor p p' factType → ∀ s', s' = (s.advance 1).record w.plan.key
        (w.plan.tenantId.val, commandId)
        (w.plan.planId.val, commandFingerprint sha factType payload) fact p' →
        I s' ∧ Along C I R (f p') s') :
    Along C I R
      (Atomic.appendNow sha ports w.plan expectedVersion factType commandId actor payload >>= f) s := by
  have hnow : Admits (s.advance 1) w.plan p expectedVersion factType commandId payload :=
    ⟨h.ledger.of_same ⟨rfl, rfl, rfl⟩, h.projection, h.command, h.identifier, h.room, h.version, h.kind,
      h.move, h.payload⟩
  refine fun _ => ⟨hI _ _ (.tick s 1) hs, ?_⟩
  refine Along.atom fun _ => (append_admitted hnow actor _).mono ?_ (fun _ _ h => h.elim)
  rintro p' s' ⟨fact, hrecorded, hsuccessor, hs'⟩
  exact hf fact p' hrecorded hsuccessor s' hs'

/-- A known fact is answered. -/
theorem along_appendNow_known {p : RemediationProjection} {expectedVersion : Int}
    {factType : RemediationFactType} {commandId : String} {payload : Fields} {actor : Identifier}
    (hcommand : s.commands (w.plan.tenantId.val, commandId) =
      some (w.plan.planId.val, commandFingerprint sha factType payload))
    (hprojection : s.projections w.plan.key = some p) {f : RemediationProjection → Program β} (hs : I s)
    (hf : Along C I R (f p) (s.advance 1)) :
    Along C I R
      (Atomic.appendNow sha ports w.plan expectedVersion factType commandId actor payload >>= f) s := by
  have hs' : I (s.advance 1) := hI _ _ (.tick s 1) hs
  refine fun _ => ⟨hs', ?_⟩
  refine Along.atom fun _ =>
    (append_known (s := s.advance 1) hcommand hprojection expectedVersion actor _).mono ?_
    (fun _ _ h => h.elim)
  rintro p' s' ⟨rfl, rfl⟩
  exact ⟨hs', hf⟩

end Scope

/-- The scope check returns the scope of the warrant. -/
theorem validatedScope_sat {w : Warrant} {s : State} (hcurrent : w.Current sha ports)
    (hstored : w.Stored sha s) (hquota : w.Quota sha s) {projection : RemediationProjection}
    (hprojection : s.projections w.plan.key = some projection) (hbinds : w.Binds sha projection)
    {statuses : List RemediationStatus} (hstatus : projection.status ∈ statuses)
    {action : ActionDefinition} (haction : action ∈ w.plan.actions) :
    Exec.Sat (validatedScope sha ports w.identity w.plan.planId.val action.actionId.val statuses) s
      (fun scope s' => scope = w.scope projection ∧ w.Aside sha s s') (fun _ _ => False) := by
  have halong : Along (fun _ _ => True) (fun _ => True)
      (fun r s' => r = .ok (w.scope projection) ∧ w.Aside sha s s')
      (Atomic.validatedScope sha ports w.identity w.plan.planId.val action.actionId.val statuses) s :=
    along_validatedScope_ends (fun _ _ _ h => h) hcurrent hstored hquota hprojection hbinds hstatus
      haction trivial
  have hdone := Along.exec halong fun _ _ => trivial
  rw [Atomic.exec_validatedScope] at hdone
  revert hdone
  unfold Exec.Sat
  rcases validatedScope sha ports w.identity w.plan.planId.val action.actionId.val statuses s with
    ⟨r, s'⟩
  cases r with
  | ok scope => exact fun h => ⟨Except.ok.inj h.1, h.2⟩
  | error e => exact fun h => by cases h.1

theorem validatedScope_ok {w : Warrant} {s : State} (hcurrent : w.Current sha ports)
    (hstored : w.Stored sha s) (hquota : w.Quota sha s) {projection : RemediationProjection}
    (hprojection : s.projections w.plan.key = some projection) (hbinds : w.Binds sha projection)
    {statuses : List RemediationStatus} (hstatus : projection.status ∈ statuses)
    {action : ActionDefinition} (haction : action ∈ w.plan.actions) :
    (validatedScope sha ports w.identity w.plan.planId.val action.actionId.val statuses s).1 =
      .ok (w.scope projection) :=
  ((validatedScope_sat hcurrent hstored hquota hprojection hbinds hstatus haction).mono
    (fun _ _ h => congrArg Except.ok h.1) (fun _ _ h => h.elim)).outcome
      (P := fun r _ => r = .ok (w.scope projection))

end Remediation

end Aegis
