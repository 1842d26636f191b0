/-
  WHERE THE STORED RECORDS COME FROM.

  A decision in the store was made by a `decide` call of the history, on the approval and the plan the
  stores held then; a plan came from a `propose` call, an approval from a `request_approval` call
  under the policy of that moment.  Each is an invariant of the HISTORY and the state, kept by every
  event of every call.

  A record is replaced only by one with the same digest.  That the content is the same then needs the
  hash to be collision free, on the texts that the run really hashes: the approvals and the plans that
  its states hold.
-/
import Mathlib
import Aegis.Remediation.Effects

namespace Aegis

namespace Remediation

open Exec (Path)

variable {sha : Sha256} {ports : Ports}

/-! ## Texts -/

/-- The text whose hash is the digest of an approval. -/
def ActionApprovalRequest.text (a : ActionApprovalRequest) : String := canonicalJson (.obj a.document)

/-- The text whose hash is the digest of a plan. -/
def RemediationPlan.text (sha : Sha256) (p : RemediationPlan) : String :=
  canonicalJson (.obj (p.document sha))

/-- The text of an approval determines the plan it is for and the roles it requires. -/
theorem approval_of_text {a b : ActionApprovalRequest} (h : a.text = b.text) :
    a.planDigest = b.planDigest ∧ a.requirement.requiredRoles = b.requirement.requiredRoles := by
  have hsame := canonicalJson_inj.mp h
  have hnodup : (a.document.map Prod.fst).Nodup := by
    show ["schema_version", "approval_id", "tenant_id", "plan_id", "run_id", "plan_digest",
      "action_digests", "target_fingerprint", "policy_snapshot", "requirement", "requested_by_ref",
      "requested_at", "expires_at"].Nodup
    decide
  have hplan := hsame.field (k := "plan_digest") hnodup (v := .str a.planDigest.val)
    (w := .str b.planDigest.val) (by simp [ActionApprovalRequest.document])
    (by simp [ActionApprovalRequest.document])
  have hrequirement := hsame.field (k := "requirement") hnodup (v := a.requirement.modelDump)
    (w := b.requirement.modelDump) (by simp [ActionApprovalRequest.document])
    (by simp [ActionApprovalRequest.document])
  refine ⟨Subtype.ext (Json.same_str.mp hplan), ?_⟩
  have hkeys : (["quorum", "required_roles", "distinct_approvers", "prohibit_self_approval",
    "rationale_min_length", "rationale_max_length"] : List String).Nodup := by decide
  have hroles := hrequirement.field (k := "required_roles") hkeys
    (v := .arr ((a.requirement.requiredRoles.map (·.val)).map .str))
    (w := .arr ((b.requirement.requiredRoles.map (·.val)).map .str))
    (by simp) (by simp)
  exact List.map_injective_iff.mpr Subtype.val_injective (Json.same_strs.mp hroles)

/-- The text of a plan determines its proposer. -/
theorem proposer_of_text {p q : RemediationPlan} (h : p.text sha = q.text sha) :
    p.proposerRef = q.proposerRef := by
  have hnodup : ((p.document sha).map Prod.fst).Nodup := by
    show ["schema_version", "plan_id", "tenant_id", "run_id", "incident_id", "proposer_ref",
      "target_fingerprint", "risk", "blast_radius", "rationale", "actions", "evidence",
      "critic_status", "policy_snapshot", "created_at", "expires_at"].Nodup
    decide
  have hproposer := (canonicalJson_inj.mp h).field (k := "proposer_ref") hnodup
    (v := .str p.proposerRef.val) (w := .str q.proposerRef.val)
    (by simp [RemediationPlan.document]) (by simp [RemediationPlan.document])
  exact Subtype.ext (Json.same_str.mp hproposer)

/-- The texts of the approvals that the states of a history hold. -/
def approvalTexts (h : List HistoryEntry) : Set String :=
  { x | ∃ e ∈ h, ∃ key a,
    (e.before.approvals key = some a ∨ e.after.approvals key = some a) ∧ x = a.text }

/-- The texts of the plans that the calls propose. -/
def planTexts (sha : Sha256) (ops : List Op) : Set String :=
  { x | ∃ identity p commandId, Op.propose identity p commandId ∈ ops ∧ x = p.text sha }

/-! ## Decisions -/

theorem matchingRoles_mem {roles required : List Identifier} {role : Identifier}
    (h : role ∈ matchingRoles roles required) : role ∈ roles ∧ role ∈ required := by
  unfold matchingRoles at h
  rw [List.mem_insertionSort, List.mem_dedup, List.mem_filter] at h
  exact ⟨h.1, of_decide_eq_true h.2⟩

/-- What `decide` has checked about the role and the exact scope. -/
theorem decideRole_ok {identity : IdentityContext} {request : DecideRequest}
    {approval : ActionApprovalRequest} {plan : RemediationPlan} {policy : ActionPolicy}
    {role : Identifier} (h : decideRole sha identity request approval plan policy = .ok role) :
    approval.planDigest = plan.digest sha ∧ approval.policySnapshot = policy.snapshot sha ∧
      (approval.requirement.prohibitSelfApproval = true →
        actorRef sha identity ≠ plan.proposerRef) ∧
      role ∈ identity.roles ∧ role ∈ approval.requirement.requiredRoles := by
  unfold decideRole at h
  split at h
  · cases h
  · rename_i hplan
    split at h
    · cases h
    · rename_i hpolicy
      split at h
      · cases h
      · rename_i hself
        split at h
        · cases h
        · rename_i hroles
          split at h
          · have hrole := matchingRoles_mem (hroles ▸ List.mem_cons_self)
            rw [Except.ok.inj h] at hrole
            push Not at hplan hpolicy
            exact ⟨hplan.2, hpolicy.2, fun hp he => hself ⟨hp, he⟩, hrole.1, hrole.2⟩
          · cases h

/-- The fields of a decision. -/
theorem buildDecision_ok {identity : IdentityContext} {approval : ActionApprovalRequest}
    {plan : RemediationPlan} {policy : ActionPolicy} {role : Identifier}
    {disposition : ApprovalDisposition} {approvalId commandId rationale : String} {time : Datetime}
    {d : ApprovalDecision}
    (h : buildDecision sha identity approval plan policy role disposition approvalId commandId
      rationale time = .ok d) :
    d.key = (identity.tenantId.val, approvalId) ∧ d.disposition = disposition ∧
      d.approverRef = actorRef sha identity ∧ d.approverRole = role ∧
      d.planDigest = plan.digest sha ∧ d.approvalDigest = approval.digest sha ∧
      d.policyDigest = policy.digest sha ∧ d.roleRevision = policy.roleRevision := by
  unfold buildDecision at h
  obtain ⟨command, -, h⟩ := except_bind_ok.mp h
  obtain ⟨subject, hsubject, h⟩ := except_bind_ok.mp h
  split at h
  · rw [← Except.ok.inj h]
    refine ⟨?_, rfl, rfl, rfl, rfl, rfl, rfl, rfl⟩
    show (identity.tenantId.val, subject.val) = _
    rw [Identifier.parse_ok hsubject]
  · cases h

theorem approvers_mem {valid : ApprovalDecision → Bool} {decisions : List ApprovalDecision}
    {ref : Identifier} (h : ref ∈ approvers valid decisions) :
    ∃ d ∈ decisions, d.disposition = .grant ∧ valid d = true ∧ d.approverRef = ref := by
  unfold approvers at h
  rw [List.mem_dedup, List.mem_map] at h
  obtain ⟨d, hd, href⟩ := h
  rw [List.mem_filter, Bool.and_eq_true] at hd
  exact ⟨d, hd.1, of_decide_eq_true hd.2.1, hd.2.2, href⟩

/-- The call made the decision, on what the stores held when it began. -/
def DecidedBy (sha : Sha256) (e : HistoryEntry) (d : ApprovalDecision)
    (approval : ActionApprovalRequest) (plan : RemediationPlan) : Prop :=
  ∃ identity request, e.op = .decide identity request ∧
    Decided sha e.before identity request approval plan d ∧ d ∈ e.after.decisions d.key

/-- **Every stored decision was made by a call of the history.** -/
theorem decisions_made (policies : List ActionPolicy) (limits : String → Int) (ops : List Op) :
    ∀ key, ∀ d ∈ (run sha ports (State.start policies limits) ops).decisions key,
      d.key = key ∧ ∃ e ∈ history sha ports (State.start policies limits) ops,
        ∃ approval plan, DecidedBy sha e d approval plan := by
  refine Machine.history_induction (I := fun h s => ∀ key, ∀ d ∈ s.decisions key,
    d.key = key ∧ ∃ e ∈ h, ∃ approval plan, DecidedBy sha e d approval plan) ?_ ?_ ops
  · intro key d hd
    exact absurd hd List.not_mem_nil
  · intro h s op ih key d hd
    -- along the call: a decision was there before, or the call itself makes it
    have hnew : ∀ key, ∀ d ∈ (step sha ports s op).2.decisions key, d ∈ s.decisions key ∨
        (d.key = key ∧ ∃ identity request approval plan, op = .decide identity request ∧
          Decided sha s identity request approval plan d) := by
      refine (step_path sha ports s op).invariant (I := fun t => ∀ key, ∀ d ∈ t.decisions key,
        d ∈ s.decisions key ∨ (d.key = key ∧ ∃ identity request approval plan,
          op = .decide identity request ∧ Decided sha s identity request approval plan d)) ?_
        (fun _ _ hd => Or.inl hd)
      intro t i ht hi
      cases hi
      case decision identity request approval plan decision hop hdecided hfresh hother =>
        intro key d hd
        have hd' : d ∈ Function.update t.decisions decision.key
          (t.decisions decision.key ++ [decision]) key := hd
        by_cases hkey : key = decision.key
        · rw [hkey, Function.update_self, List.mem_append, List.mem_singleton] at hd'
          rcases hd' with hd' | rfl
          · rw [hkey]
            exact ht decision.key d hd'
          · exact .inr ⟨hkey.symm, identity, request, approval, plan, hop, hdecided⟩
        · rw [Function.update_of_ne hkey] at hd'
          exact ht key d hd'
      all_goals exact ht
    rcases hnew key d hd with hold | ⟨hkey, identity, request, approval, plan, hop, hdecided⟩
    · obtain ⟨hkey, e, he, hmade⟩ := ih key d hold
      exact ⟨hkey, e, List.mem_append_left _ he, hmade⟩
    · refine ⟨hkey, Machine.entry (step sha ports) s op, List.mem_append_right _ List.mem_cons_self,
        approval, plan, identity, request, hop, hdecided, ?_⟩
      rw [hkey]
      exact hd

/-! ## Plans -/

/-- **Every stored plan was proposed**, and is stored under its own key. -/
theorem plans_proposed (policies : List ActionPolicy) (limits : String → Int) (ops : List Op) :
    ∀ key p, (run sha ports (State.start policies limits) ops).plans key = some p →
      p.key = key ∧ ∃ identity commandId, Op.propose identity p commandId ∈ ops ∧
        p.tenantId = identity.tenantId := by
  induction ops using List.reverseRecOn with
  | nil =>
    intro key p hp
    cases hp
  | append_singleton ops op ih =>
    rw [run, Machine.final_concat]
    refine (step_path sha ports _ op).invariant (I := fun t => ∀ key p, t.plans key = some p →
      p.key = key ∧ ∃ identity commandId, Op.propose identity p commandId ∈ ops ++ [op] ∧
        p.tenantId = identity.tenantId) ?_ ?_
    · intro t i ht hi
      cases hi
      case plan identity plan commandId hop htenant hsame =>
        intro key p hp
        have hp' : Function.update t.plans plan.key (some plan) key = some p := hp
        by_cases hkey : key = plan.key
        · rw [hkey, Function.update_self] at hp'
          obtain rfl := Option.some.inj hp'
          refine ⟨hkey.symm, identity, commandId, ?_, htenant⟩
          rw [← hop]
          exact List.mem_append_right _ List.mem_cons_self
        · rw [Function.update_of_ne hkey] at hp'
          exact ht key p hp'
      all_goals exact ht
    · intro key p hp
      obtain ⟨hkey, identity, commandId, hmem, htenant⟩ := ih key p hp
      exact ⟨hkey, identity, commandId, List.mem_append_left _ hmem, htenant⟩

/-! ## Policies and approvals -/

/-- The policies that a run can install: those of the start and those that replace them. -/
def Installable (policies : List ActionPolicy) (ops : List Op) (p : ActionPolicy) : Prop :=
  p ∈ policies ∨ Op.replacePolicy p ∈ ops

theorem policies_installed (policies : List ActionPolicy) (limits : String → Int) (ops : List Op) :
    ∀ t p, (run sha ports (State.start policies limits) ops).policies t = some p →
      Installable policies ops p := by
  induction ops using List.reverseRecOn with
  | nil =>
    intro t p hp
    have hfind : policies.reverse.find? (fun p => p.tenantId.val == t) = some p := hp
    exact .inl (List.mem_reverse.mp (List.mem_of_find?_eq_some hfind))
  | append_singleton ops op ih =>
    rw [run, Machine.final_concat]
    refine (step_path sha ports _ op).invariant (I := fun s => ∀ t p, s.policies t = some p →
      Installable policies (ops ++ [op]) p) ?_ ?_
    · intro s i hs hi
      cases hi
      case policy policy hop hnewer =>
        intro t p hp
        have hp' : Function.update s.policies policy.tenantId.val (some policy) t = some p := hp
        by_cases ht : t = policy.tenantId.val
        · rw [ht, Function.update_self] at hp'
          obtain rfl := Option.some.inj hp'
          refine .inr ?_
          rw [← hop]
          exact List.mem_append_right _ List.mem_cons_self
        · rw [Function.update_of_ne ht] at hp'
          exact hs t p hp'
      all_goals exact hs
    · intro t p hp
      exact (ih t p hp).imp id (fun hmem => List.mem_append_left _ hmem)

/-- An approval that a call of `ops` can build: for a proposed plan, under an installable policy. -/
def Requested (sha : Sha256) (ports : Ports) (policies : List ActionPolicy) (ops : List Op)
    (a : ActionApprovalRequest) : Prop :=
  ∃ identity planId expectedVersion commandId plan policy n,
    Op.requestApproval identity planId expectedVersion commandId ∈ ops ∧
    (∃ identity' commandId', Op.propose identity' plan commandId' ∈ ops) ∧
    Installable policies ops policy ∧
    buildApproval sha plan policy (actorRef sha identity) (ports.clock n) = .ok a

theorem Requested.mono {policies : List ActionPolicy} {ops ops' : List Op}
    {a : ActionApprovalRequest} (h : Requested sha ports policies ops a) (hsub : ops ⊆ ops') :
    Requested sha ports policies ops' a := by
  obtain ⟨identity, planId, version, commandId, plan, policy, n, hrequest, ⟨proposer, c, hplan⟩,
    hpolicy, hbuilt⟩ := h
  exact ⟨identity, planId, version, commandId, plan, policy, n, hsub hrequest,
    ⟨proposer, c, hsub hplan⟩, hpolicy.imp id (fun hmem => hsub hmem), hbuilt⟩

/-- **Every stored approval was requested.** -/
theorem approvals_requested (policies : List ActionPolicy) (limits : String → Int) (ops : List Op) :
    ∀ key a, (run sha ports (State.start policies limits) ops).approvals key = some a →
      Requested sha ports policies ops a := by
  induction ops using List.reverseRecOn with
  | nil =>
    intro key a ha
    cases ha
  | append_singleton ops op ih =>
    have hsub : ops ⊆ ops ++ [op] := List.subset_append_left _ _
    rw [run, Machine.final_concat]
    refine (step_path sha ports _ op).invariant (I := fun t => ∀ key a, t.approvals key = some a →
      Requested sha ports policies (ops ++ [op]) a) ?_ ?_
    · intro t i ht hi
      cases hi
      case approval identity planId version commandId plan policy n approval hop hplan hpolicy
          hbuilt hsame =>
        intro key a ha
        have ha' : Function.update t.approvals approval.key (some approval) key = some a := ha
        by_cases hkey : key = approval.key
        · rw [hkey, Function.update_self] at ha'
          obtain rfl := Option.some.inj ha'
          obtain ⟨-, proposer, c, hproposed, -⟩ := plans_proposed policies limits ops _ plan hplan
          refine ⟨identity, planId, version, commandId, plan, policy, n, ?_,
            ⟨proposer, c, hsub hproposed⟩, ?_, hbuilt⟩
          · rw [← hop]
            exact List.mem_append_right _ List.mem_cons_self
          · exact (policies_installed policies limits ops _ policy hpolicy).imp id
              (fun hmem => hsub hmem)
        · rw [Function.update_of_ne hkey] at ha'
          exact ht key a ha'
      all_goals exact ht
    · intro key a ha
      exact (ih key a ha).mono hsub

/-- The texts of approvals are texts of requested ones. -/
theorem approvalTexts_requested {policies : List ActionPolicy} {limits : String → Int}
    {ops : List Op} {x : String}
    (hx : x ∈ approvalTexts (history sha ports (State.start policies limits) ops)) :
    ∃ a, Requested sha ports policies ops a ∧ x = a.text := by
  obtain ⟨e, he, key, a, ha, rfl⟩ := hx
  refine ⟨a, ?_, rfl⟩
  obtain ⟨xs, ys, hops, hentry⟩ := Machine.trace_mem he
  rcases ha with ha | ha
  · have ha' : (run sha ports (State.start policies limits) xs).approvals key = some a := by
      rw [hentry] at ha
      exact ha
    refine (approvals_requested policies limits xs key a ha').mono ?_
    rw [hops]
    exact List.subset_append_left _ _
  · have ha' : (run sha ports (State.start policies limits) (xs ++ [e.op])).approvals key
        = some a := by
      rw [hentry] at ha
      rw [run, Machine.final_concat]
      exact ha
    refine (approvals_requested policies limits _ key a ha').mono ?_
    rw [hops]
    intro op hop
    rcases List.mem_append.mp hop with hop | hop
    · exact List.mem_append_left _ hop
    · rw [List.mem_singleton.mp hop]
      exact List.mem_append_right _ List.mem_cons_self

/-- The approvals of the state that the calls lead to are in the history. -/
theorem run_approvalTexts {policies : List ActionPolicy} {limits : String → Int} {ops : List Op}
    {key : String × String} {a : ActionApprovalRequest}
    (ha : (run sha ports (State.start policies limits) ops).approvals key = some a) :
    a.text ∈ approvalTexts (history sha ports (State.start policies limits) ops) := by
  induction ops using List.reverseRecOn with
  | nil => cases ha
  | append_singleton ops op _ =>
    rw [run, Machine.final_concat] at ha
    refine ⟨Machine.entry (step sha ports) (run sha ports (State.start policies limits) ops) op, ?_,
      key, a, .inr ha, rfl⟩
    rw [history, Machine.trace_concat]
    exact List.mem_append_right _ List.mem_cons_self

/-! ## A worked case

One tenant, one policy that forbids self-approval, one plan of two actions.  The hash is constant: it
is collision free on the one plan and the one approval of the case, and every actor has one
reference. -/

def sampleIdentity (subject : String) (h : isSubject subject = true := by exact computed) :
    IdentityContext where
  tenantId := ⟨"t", computed⟩
  issuer := ⟨"https://i", computed⟩
  subjectId := ⟨subject, h⟩
  principalKind := .human
  roles := [⟨"sre", computed⟩]
  requestId := ⟨"q", computed⟩
  traceId := ⟨"trace", computed⟩

def sampleAction (id : String) (h : isIdentifier id = true := by exact computed) : ActionDefinition where
  actionId := ⟨id, h⟩
  target := { clusterRef := ⟨"c", computed⟩, namespaceName := ⟨"n", computed⟩,
              name := ⟨"d", computed⟩, uid := ⟨"u", computed⟩,
              resourceVersion := ⟨"1", computed⟩, resourceFingerprint := zeroHash }
  risk := .low
  blastRadius := .oneService
  preconditions := [⟨⟨"phase", computed⟩, .equals, .str "ready"⟩]
  postconditions := [⟨⟨"phase", computed⟩, .equals, .str "ready"⟩]
  retry := ⟨1, 5, 5, 5, by decide⟩
  idempotencyKey := ⟨"k", computed⟩
  compensation := ⟨false, .observeOnly, none, false, observes_unbound, fun _ => rfl⟩
  preconditions_ok := by decide
  postconditions_ok := by decide

def samplePolicy : ActionPolicy where
  tenantId := ⟨"t", computed⟩
  policyId := ⟨"policy", computed⟩
  revision := 1
  roleRevision := 1
  quotaRevision := 1
  enabled := true
  allowedActionTypes := [literalIdentifier actionType]
  allowedTargetFingerprints := [zeroHash]
  allowedNamespaces := [⟨"n", computed⟩]
  maintenanceWindowStart := ⟨0, 0⟩
  maintenanceWindowEnd := ⟨100, 0⟩
  maxRisk := .low
  maxBlastRadius := .oneService
  remainingEffects := 1
  highRiskQuorum := 2
  normalQuorum := 1
  approverRoles := [⟨"sre", computed⟩]
  prohibitSelfApproval := true
  revisions_ok := by decide
  quorums_ok := by decide
  roles_ok := by decide
  window_ok := by decide

/-- A plan whose document names `proposerRef`. -/
def samplePlan (proposerRef : Identifier) : RemediationPlan where
  planId := ⟨"p", computed⟩
  tenantId := ⟨"t", computed⟩
  runId := ⟨"r", computed⟩
  incidentId := ⟨"i", computed⟩
  proposerRef
  targetFingerprint := zeroHash
  risk := .low
  blastRadius := .oneService
  rationale := "restart"
  actions := [sampleAction "a", sampleAction "b"]
  evidence := [⟨⟨"e", computed⟩, "l", zeroHash, none, short_locator, no_page⟩]
  policySnapshot := samplePolicy.snapshot .constant
  createdAt := ⟨0, 0⟩
  expiresAt := ⟨100, 0⟩
  rationale_ok := by decide
  actions_ok := by decide
  evidence_ok := by decide
  expiry_ok := by decide
  ids_unique := by decide
  target_ok := by decide
  risk_ok := by decide

def sampleReceipt (intent : ActionIntent) (outcome : EffectOutcome) : ActionReceipt :=
  syntheticReceipt intent outcome (literalIdentifier "ok") ⟨10, 0⟩ none

/-- Every caller is authorized; the adapter does what it is asked, unless its dry run raises. -/
def samplePorts (dryRunRaises : Bool) : Ports where
  clock := fun _ => ⟨10, 0⟩
  authorize := fun _ _ _ _ => (true, "allowed")
  dryRun := fun _ intent =>
    if dryRunRaises then .error ⟨.effectConflict, "dry run timed out"⟩
    else .ok (sampleReceipt intent .dryRunSucceeded)
  observe := fun _ intent => .ok
    { tenantId := intent.tenantId, planId := intent.planId, actionId := intent.action.actionId,
      operationId := intent.operationId, targetFingerprint := zeroHash, state := .before,
      facts := AList.singleton "phase" (.str "ready"), observedAt := ⟨10, 0⟩,
      providerReceiptRef := none, attemptFence := intent.fenceToken, facts_ok := by decide }
  execute := fun _ intent => .ok (sampleReceipt intent .succeeded)
  compensate := fun _ intent => .ok (sampleReceipt intent .compensated)

def sampleStart : State := State.start [samplePolicy] (fun _ => 2)

/-- `x` proposes the plan and requests its approval, `subject` grants it. -/
def sampleApproval (plan : RemediationPlan) (subject : String)
    (h : isSubject subject = true := by exact computed) : List Op :=
  [.propose (sampleIdentity "x") plan "c1",
   .requestApproval (sampleIdentity "x") "p" 2 "c2",
   .decide (sampleIdentity subject h)
     { approvalId := (approvalIdOf .constant plan).val, disposition := .grant,
       rationale := "looks right to me", expectedVersion := 3, commandId := "c3",
       planDigest := (plan.digest .constant).val,
       approvalDigest := (Sha256.constant.hexdigest "").val }]

/-- A name that is no actor's reference. -/
def someone : Identifier := ⟨"someone", by decide⟩

/-- The request of an effect on an action of the plan. -/
def sampleRequest (actionId operationId : String) (expectedVersion : Int) : EffectRequest where
  planId := "p"
  actionId
  expectedVersion
  operationId
  attempt := 1

/-- The calls of the case: they propose the one plan, `x` requests approvals, the policy stays. -/
def SampleCall (plan : RemediationPlan) : Op → Prop
  | .propose _ proposed _ => proposed = plan
  | .requestApproval identity _ _ _ => identity = sampleIdentity "x"
  | .replacePolicy _ => False
  | _ => True

/-- The case builds one approval. -/
theorem sample_approvalTexts (plan : RemediationPlan) {dryRunRaises : Bool} {ops : List Op}
    (hops : ∀ op ∈ ops, SampleCall plan op) :
    (approvalTexts (history .constant (samplePorts dryRunRaises) sampleStart ops)).Subsingleton := by
  have hbuilt : ∀ x ∈ approvalTexts (history .constant (samplePorts dryRunRaises) sampleStart ops),
      ∃ a : ActionApprovalRequest, x = a.text ∧ buildApproval .constant plan samplePolicy
        (actorRef .constant (sampleIdentity "x")) ⟨10, 0⟩ = .ok a := by
    intro x hx
    obtain ⟨a, ⟨identity, planId, version, commandId, plan', policy, n, hrequest,
      ⟨proposer, c, hplan⟩, hpolicy, hbuilt⟩, rfl⟩ := approvalTexts_requested hx
    have hproposed : plan' = plan := hops _ hplan
    have hrequester : identity = sampleIdentity "x" := hops _ hrequest
    have hinstalled : policy = samplePolicy := by
      rcases hpolicy with hmem | hmem
      · exact List.mem_singleton.mp hmem
      · exact (hops _ hmem).elim
    rw [hproposed, hrequester, hinstalled] at hbuilt
    exact ⟨a, rfl, hbuilt⟩
  intro x hx y hy
  obtain ⟨a, rfl, ha⟩ := hbuilt x hx
  obtain ⟨b, rfl, hb⟩ := hbuilt y hy
  rw [Except.ok.inj (ha.symm.trans hb)]

end Remediation

end Aegis
