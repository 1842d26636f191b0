/-
  QUORUM SAFETY OF EFFECTS.

  The adapter's `execute` is reached from one place, behind `validatedScope`, so what it needs is what
  that check saw when the call began (`performs_intended`).  The check counts DISTINCT approvers among
  the stored grants that carry the exact digests; that each of those grants is the act of a human with
  a required role is not seen by the check.  It is a fact of the history: the decision was made by an
  earlier `decide` call, which checked the roles of an approval with the SAME DIGEST.
-/
import Mathlib
import Aegis.Remediation.Approvals

namespace Aegis

namespace Remediation

open Exec (Path)

variable {sha : Sha256} {ports : Ports}

/-! ## Calls of the adapter -/

/-- The call asked the adapter. -/
def Performs (e : HistoryEntry) (call : AdapterCall) : Prop :=
  ∃ new, e.after.calls = e.before.calls ++ new ∧ call ∈ new

/-- The calls of the adapter that a call makes are its own, for intents in its checked scope. -/
theorem step_calls (sha : Sha256) (ports : Ports) (s : State) (op : Op) :
    ∃ new, (step sha ports s op).2.calls = s.calls ++ new ∧
      ∀ c ∈ new, op.mayCall c ∧ Intended sha ports s op c.intent := by
  refine (step_path sha ports s op).invariant (I := fun t => ∃ new, t.calls = s.calls ++ new ∧
    ∀ c ∈ new, op.mayCall c ∧ Intended sha ports s op c.intent) ?_ ⟨[], by simp, by simp⟩
  intro t i ht hi
  cases hi
  case call call hcall hintent =>
    obtain ⟨new, hnew, hall⟩ := ht
    refine ⟨new ++ [call], ?_, ?_⟩
    · show t.calls ++ [call] = _
      rw [hnew, List.append_assoc]
    · intro c hc
      rcases List.mem_append.mp hc with hc | hc
      · exact hall c hc
      · rw [List.mem_singleton.mp hc]
        exact ⟨hcall, hintent⟩
  all_goals exact ht

theorem performs_intended {s : State} {op : Op} {call : AdapterCall}
    (h : Performs (Machine.entry (step sha ports) s op) call) :
    op.mayCall call ∧ Intended sha ports s op call.intent := by
  obtain ⟨new, hnew, hall⟩ := step_calls sha ports s op
  obtain ⟨new', hnew', hmem⟩ := h
  have hsame : new' = new := List.append_cancel_left (hnew'.symm.trans hnew)
  rw [hsame] at hmem
  exact hall call hmem

/-- The fields of an intent. -/
theorem buildIntent_ok {scope : EffectScope} {request : EffectRequest} {dryRun : Bool}
    {time : Datetime} {intent : ActionIntent}
    (h : buildIntent sha scope request dryRun time = .ok intent) :
    intent.tenantId = scope.plan.tenantId ∧ intent.planId = scope.plan.planId ∧
      intent.planDigest = scope.plan.digest sha ∧ intent.action ∈ scope.plan.actions ∧
      intent.action.actionId.val = request.actionId := by
  unfold buildIntent at h
  split at h
  · cases h
  · rename_i action haction
    obtain ⟨operationId, -, h⟩ := except_bind_ok.mp h
    split at h
    · rw [← Except.ok.inj h]
      have hid := List.find?_some haction
      exact ⟨rfl, rfl, rfl, List.mem_of_find?_eq_some haction, of_decide_eq_true hid⟩
    · cases h

/-- A policy that does not refuse a plan. -/
theorem refusal_none {policy : ActionPolicy} {plan : RemediationPlan} {consumeQuota : Bool}
    {time : Datetime} (h : refusal policy plan consumeQuota time = none) :
    policy.enabled = true ∧ policy.maintenanceWindowStart ≤ time ∧
      time < policy.maintenanceWindowEnd ∧
      ∀ action ∈ plan.actions, actionType ∈ policy.allowedActionTypes.map (·.val) ∧
        action.target.resourceFingerprint ∈ policy.allowedTargetFingerprints ∧
        action.target.namespaceName ∈ policy.allowedNamespaces := by
  unfold refusal at h
  split_ifs at h with henabled hwindow hrisk hblast hquota hactions
  rw [not_or, Datetime.lt_iff, Datetime.le_iff, not_lt, not_le] at hwindow
  refine ⟨by simpa using henabled, hwindow.1, hwindow.2, fun action haction => ?_⟩
  push Not at hactions
  exact hactions action haction

/-! ## The law -/

/-- A grant that counts for a scope: it carries the exact digests of plan, approval and installed
    policy, and an earlier `decide` call of a human with one of the required roles made it. -/
structure ValidGrant (sha : Sha256) (pre : List HistoryEntry) (tenantId : Identifier)
    (scope : EffectScope) (ref : Identifier) (d : ApprovalDecision) : Prop where
  granted : d.disposition = .grant
  approver : d.approverRef = ref
  planDigest : d.planDigest = scope.plan.digest sha
  approvalDigest : d.approvalDigest = scope.approval.digest sha
  policyDigest : d.policyDigest = scope.policy.digest sha
  roleRevision : d.roleRevision = scope.policy.roleRevision
  made : ∃ e ∈ pre, ∃ identity request, e.op = .decide identity request ∧
    d ∈ e.after.decisions d.key ∧ identity.tenantId = tenantId ∧
    identity.principalKind = .human ∧ ref = actorRef sha identity ∧
    ∃ role ∈ identity.roles, role ∈ scope.approval.requirement.requiredRoles

/-- What the scope check of an `execute` call saw.  The authorization is the first question of the
    call to its ports; the next three are the readings of the clock. -/
structure QuorumChecked (sha : Sha256) (ports : Ports) (pre : List HistoryEntry) (e : HistoryEntry)
    (intent : ActionIntent) (identity : IdentityContext) (request : EffectRequest)
    (scope : EffectScope) : Prop where
  executed : e.op = .execute identity request
  plan : e.before.plans (identity.tenantId.val, request.planId) = some scope.plan
  intended : intent.tenantId = scope.plan.tenantId ∧ intent.planId = scope.plan.planId ∧
    intent.planDigest = scope.plan.digest sha ∧ intent.action ∈ scope.plan.actions
  approval : ∃ id, scope.projection.approvalId = some id ∧
    e.before.approvals (identity.tenantId.val, id) = some scope.approval
  approvedPlan : scope.approval.planDigest = scope.plan.digest sha
  policy : e.before.policies identity.tenantId.val = some scope.policy
  quorum : ∃ refs : List Identifier, refs.Nodup ∧
    scope.approval.requirement.quorum ≤ refs.length ∧
    ∀ ref ∈ refs, ∃ d ∈ e.before.decisions (identity.tenantId.val, scope.approval.approvalId.val),
      ValidGrant sha pre identity.tenantId scope ref d
  undenied : ∀ d ∈ e.before.decisions (identity.tenantId.val, scope.approval.approvalId.val),
    d.disposition ≠ .deny
  approvalUnexpired : ports.clock (e.before.tick + 1) < scope.approval.expiresAt
  planUnexpired : ports.clock (e.before.tick + 2) < scope.plan.expiresAt
  enabled : scope.policy.enabled = true
  window : scope.policy.maintenanceWindowStart ≤ ports.clock (e.before.tick + 3) ∧
    ports.clock (e.before.tick + 3) < scope.policy.maintenanceWindowEnd
  allowed : ∀ action ∈ scope.plan.actions,
    actionType ∈ scope.policy.allowedActionTypes.map (·.val) ∧
      action.target.resourceFingerprint ∈ scope.policy.allowedTargetFingerprints ∧
      action.target.namespaceName ∈ scope.policy.allowedNamespaces
  status : e.before.projections (identity.tenantId.val, request.planId) = some scope.projection ∧
    (scope.projection.status = .preflight ∨ scope.projection.status = .executing ∨
      scope.projection.status = .succeeded)

/-- A counted grant is valid: the call that made it saw an approval with the digest, hence the
    roles, of the one in scope. -/
theorem grant_valid {pre : List HistoryEntry} {key : String × String} {scope : EffectScope}
    {tenantId : Identifier} {texts : Set String} (hfree : sha.CollisionFree texts)
    (hscope : scope.approval.text ∈ texts) (hpre : approvalTexts pre ⊆ texts)
    {d : ApprovalDecision} (hkey : d.key = key) (htenant : key.1 = tenantId.val)
    (hgrant : d.disposition = .grant) (hexact : exactDecision sha scope d = true)
    {e : HistoryEntry} (he : e ∈ pre) {approval : ActionApprovalRequest} {plan : RemediationPlan}
    (hmade : DecidedBy sha e d approval plan) :
    ValidGrant sha pre tenantId scope d.approverRef d := by
  obtain ⟨identity, request, hop, hdecided, hstored⟩ := hmade
  obtain ⟨policy, role, time, -, hrole, hbuilt⟩ := hdecided.made
  obtain ⟨-, -, -, hroles, hrequired⟩ := decideRole_ok hrole
  obtain ⟨hdkey, -, hactor, -, -, happroval, -, -⟩ := buildDecision_ok hbuilt
  simp only [exactDecision, Bool.and_eq_true, decide_eq_true_eq] at hexact
  obtain ⟨⟨⟨hplan, hdigest⟩, hpolicy⟩, hrevision⟩ := hexact
  have htext : approval.text = scope.approval.text := by
    refine hfree.hexdigest (hpre ⟨e, he, _, approval, .inl hdecided.stored, rfl⟩) hscope ?_
    show approval.digest sha = scope.approval.digest sha
    rw [← happroval, hdigest]
  refine { granted := hgrant, approver := rfl, planDigest := hplan, approvalDigest := hdigest,
           policyDigest := hpolicy, roleRevision := hrevision, made := ?_ }
  refine ⟨e, he, identity, request, hop, hstored, Subtype.ext ?_, hdecided.human, hactor, role,
    hroles, ?_⟩
  · rw [← htenant, ← hkey, hdkey]
  · rw [← (approval_of_text htext).2]
    exact hrequired

/-- **Quorum safety.**  Every `execute` of the adapter happens in an `execute` call whose scope check
    saw a quorum of valid grants, no denial, an unexpired approval and plan, an installed policy that
    allows every action of the plan, and a status that permits execution. -/
theorem effects_need_quorum (policies : List ActionPolicy) (limits : String → Int) (ops : List Op)
    (hfree : sha.CollisionFree (approvalTexts (history sha ports (State.start policies limits) ops)))
    {pre post : List HistoryEntry} {e : HistoryEntry} {intent : ActionIntent}
    (hhistory : history sha ports (State.start policies limits) ops = pre ++ e :: post)
    (hperforms : Performs e (.execute intent)) :
    ∃ identity request scope, QuorumChecked sha ports pre e intent identity request scope := by
  obtain ⟨xs, hpre, hbefore, he⟩ := history_split hhistory
  have hmem : e ∈ history sha ports (State.start policies limits) ops := by
    rw [hhistory]
    exact List.mem_append_right _ List.mem_cons_self
  have hsub : approvalTexts pre ⊆ approvalTexts
      (history sha ports (State.start policies limits) ops) := by
    rintro x ⟨e', he', hx⟩
    refine ⟨e', ?_, hx⟩
    rw [hhistory]
    exact List.mem_append_left _ he'
  rw [he] at hperforms
  obtain ⟨hcall, hintent⟩ := performs_intended hperforms
  obtain ⟨request, scope, dryRun, time, ⟨identity, statuses, heffect, hscope⟩, hbuilt⟩ := hintent
  -- only `execute` calls `actions.execute`
  cases hop : e.op with
  | execute identity' request' =>
    rw [hop] at heffect
    obtain ⟨rfl, rfl, rfl⟩ : identity' = identity ∧ request' = request ∧
        [.preflight, .executing, .succeeded] = statuses := by
      simpa [Op.effect] using heffect
    obtain ⟨htenant, hplanId, hplanDigest, haction, -⟩ := buildIntent_ok hbuilt
    obtain ⟨hplanKey, -⟩ := plans_proposed policies limits xs _ _ (hbefore ▸ hscope.plan)
    have htenantId : scope.plan.tenantId.val = identity'.tenantId.val :=
      (Prod.mk.inj hplanKey).1
    obtain ⟨policy, hinstalled, hrefusal⟩ := hscope.installed
    rw [htenantId, hscope.policy] at hinstalled
    obtain rfl := Option.some.inj hinstalled
    obtain ⟨henabled, hstart, hend, hallowed⟩ := refusal_none hrefusal
    obtain ⟨id, hid, happroval⟩ := hscope.approval
    refine ⟨identity', request', scope,
      { executed := hop, plan := hscope.plan,
        intended := ⟨htenant, hplanId, hplanDigest, haction⟩, approval := hscope.approval,
        approvedPlan := hscope.planDigest, policy := hscope.policy,
        quorum := ⟨_, List.nodup_dedup _, hscope.quorum, ?_⟩, undenied := hscope.undenied,
        approvalUnexpired := hscope.approvalTime, planUnexpired := hscope.planTime,
        enabled := henabled, window := ⟨hstart, hend⟩, allowed := hallowed,
        status := ⟨hscope.projection, by simpa using hscope.status⟩ }⟩
    intro ref href
    obtain ⟨d, hd, hgrant, hexact, rfl⟩ := approvers_mem href
    obtain ⟨hkey, e', he', approval, plan, hmade⟩ :=
      decisions_made policies limits xs _ d (hbefore ▸ hd)
    refine ⟨d, hd, grant_valid hfree ⟨e, hmem, _, scope.approval, .inl happroval, rfl⟩ hsub hkey rfl
      hgrant hexact (hpre ▸ he') hmade⟩
  | propose => rw [hop] at hcall; exact hcall.elim
  | requestApproval => rw [hop] at hcall; exact hcall.elim
  | decide => rw [hop] at hcall; exact hcall.elim
  | revoke => rw [hop] at hcall; exact hcall.elim
  | get => rw [hop] at hcall; exact hcall.elim
  | preflight => rw [hop] at hcall; exact hcall.elim
  | reconcile => rw [hop] at hcall; exact hcall.elim
  | verify => rw [hop] at hcall; exact hcall.elim
  | rollback => rw [hop] at hcall; exact hcall.elim
  | replacePolicy => rw [hop] at hcall; exact hcall.elim

def AdapterCall.isExecute : AdapterCall → Bool
  | .execute _ => true
  | _ => false

/-- A call after which the adapter has executed more often has asked it to. -/
theorem performs_execute {s : State} {op : Op}
    (h : s.calls.countP AdapterCall.isExecute
      < (step sha ports s op).2.calls.countP AdapterCall.isExecute) :
    ∃ intent, Performs (Machine.entry (step sha ports) s op) (.execute intent) := by
  obtain ⟨new, hnew, -⟩ := step_calls sha ports s op
  rw [hnew, List.countP_append] at h
  have hpos : 0 < new.countP AdapterCall.isExecute := by omega
  obtain ⟨c, hc, hexecute⟩ := List.countP_pos_iff.mp hpos
  cases c with
  | execute intent => exact ⟨intent, new, hnew, hc⟩
  | dryRun => cases hexecute
  | observe => cases hexecute
  | compensate => cases hexecute

/-- The calls of the case up to the execution of action `a`. -/
def sampleOps : List Op :=
  sampleApproval (samplePlan someone) "y" ++ [.preflight (sampleIdentity "x") (sampleRequest "a" "o1" 4)]

def sampleExecute : Op := .execute (sampleIdentity "x") (sampleRequest "a" "o2" 6)

/-- The worked case: the action of the approved plan is executed. -/
theorem effects_need_quorum_sample :
    ∃ intent identity request scope,
      Performs (Machine.entry (step .constant (samplePorts false))
        (run .constant (samplePorts false) sampleStart sampleOps) sampleExecute)
        (.execute intent) ∧
      QuorumChecked .constant (samplePorts false)
        (history .constant (samplePorts false) sampleStart sampleOps)
        (Machine.entry (step .constant (samplePorts false))
          (run .constant (samplePorts false) sampleStart sampleOps) sampleExecute)
        intent identity request scope := by
  have hexecuted : (run .constant (samplePorts false) sampleStart sampleOps).calls.countP
      AdapterCall.isExecute < (step .constant (samplePorts false)
        (run .constant (samplePorts false) sampleStart sampleOps) sampleExecute).2.calls.countP
          AdapterCall.isExecute := by decide +kernel
  obtain ⟨intent, hperforms⟩ := performs_execute hexecuted
  obtain ⟨identity, request, scope, hchecked⟩ := effects_need_quorum [samplePolicy] (fun _ => 2)
    (sampleOps ++ [sampleExecute]) (.of_subsingleton (sample_approvalTexts (samplePlan someone) (by
      simp [SampleCall, sampleOps, sampleApproval, sampleExecute])))
    (Machine.trace_concat sampleStart sampleOps sampleExecute) hperforms
  exact ⟨intent, identity, request, scope, hperforms, hchecked⟩

end Remediation

end Aegis
