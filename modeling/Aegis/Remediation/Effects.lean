/-
  WHAT A CALL OF THE SERVICES MAY DO, said once.

  A call writes by EVENTS: a question to a port, a call of the adapter, a fact, a stored record.
  `May sha ports s op t i` says when the call `op`, begun in the state `s`, may do `i` in the state
  `t`: which checks have passed, against which records of `s`.  Every call goes along a path of such
  events (`step_path`), however it ends; each law of the services is then proved per event.

  The checks of an effect are `Scoped`, the checks of a decision `Decided`: both speak of the stores
  as they are when the call begins, for nothing that they read is written in between.
-/
import Mathlib
import Aegis.Lib.Events
import Aegis.Remediation.Services

namespace Aegis

namespace Remediation

open Exec (Path Traced)

/-! ## Events -/

/-- The writes of the services. -/
inductive Event where
  | tick
  | call (call : AdapterCall)
  | record (key command : String × String) (entry : String × Digest) (fact : RemediationFact)
      (projection : RemediationProjection)
  | plan (plan : RemediationPlan)
  | approval (approval : ActionApprovalRequest)
  | decision (decision : ApprovalDecision) (digest : Digest)
  | verification (record : VerificationRecord)
  | policy (policy : ActionPolicy)
  | claim (key : String × String) (claim : EffectClaim)
  | quota (key : String × String) (decision : EffectQuotaDecision) (remaining : String → Int)

def RemediationPlan.key (p : RemediationPlan) : String × String := (p.tenantId.val, p.planId.val)

def ActionApprovalRequest.key (a : ActionApprovalRequest) : String × String :=
  (a.tenantId.val, a.approvalId.val)

def ApprovalDecision.key (d : ApprovalDecision) : String × String :=
  (d.tenantId.val, d.approvalId.val)

def Event.apply : Event → State → State
  | .tick, s => { s with tick := s.tick + 1 }
  | .call c, s => { s with tick := s.tick + 1, calls := s.calls ++ [c] }
  | .record key command entry fact projection, s => s.record key command entry fact projection
  | .plan p, s => { s with plans := Function.update s.plans p.key (some p) }
  | .approval a, s => { s with approvals := Function.update s.approvals a.key (some a) }
  | .decision d digest, s =>
    { s with decisions := Function.update s.decisions d.key (s.decisions d.key ++ [d]),
             decisionCommands := Function.update s.decisionCommands
               (d.tenantId.val, d.commandId.val) (some digest) }
  | .verification v, s =>
    { s with verifications := Function.update s.verifications
               (v.tenantId.val, v.verificationId.val) (some v) }
  | .policy p, s => { s with policies := Function.update s.policies p.tenantId.val (some p) }
  | .claim key c, s => { s with claims := Function.update s.claims key (some c) }
  | .quota key d remaining, s =>
    { s with reservations := Function.update s.reservations key (some d), remaining }

/-- The state after `n` questions to the ports. -/
def State.advance (s : State) (n : Nat) : State := { s with tick := s.tick + n }

/-! ## The checks -/

/-- What `validatedScope` has checked, against the stores and the clock of `s`. -/
structure Scoped (sha : Sha256) (ports : Ports) (s : State) (identity : IdentityContext)
    (planId actionId : String) (statuses : List RemediationStatus) (scope : EffectScope) :
    Prop where
  plan : s.plans (identity.tenantId.val, planId) = some scope.plan
  projection : s.projections (identity.tenantId.val, planId) = some scope.projection
  approval : ∃ id, scope.projection.approvalId = some id ∧
    s.approvals (identity.tenantId.val, id) = some scope.approval
  policy : s.policies identity.tenantId.val = some scope.policy
  action : ∃ a ∈ scope.plan.actions, a.actionId.val = actionId
  planDigest : scope.approval.planDigest = scope.plan.digest sha
  approvalDigest : some (scope.approval.digest sha).val = scope.projection.approvalDigest
  approvalPolicy : scope.approval.policySnapshot = scope.policy.snapshot sha
  planPolicy : scope.plan.policySnapshot = scope.policy.snapshot sha
  approvalTime : ports.clock (s.tick + 1) < scope.approval.expiresAt
  planTime : ports.clock (s.tick + 2) < scope.plan.expiresAt
  undenied : ∀ item ∈ s.decisions (identity.tenantId.val, scope.approval.approvalId.val),
    item.disposition ≠ .deny
  quorum : scope.approval.requirement.quorum ≤ (approvers (exactDecision sha scope)
    (s.decisions (identity.tenantId.val, scope.approval.approvalId.val))).length
  status : scope.projection.status ∈ statuses
  installed : ∃ policy, s.policies scope.plan.tenantId.val = some policy ∧
    refusal policy scope.plan true (ports.clock (s.tick + 3)) = none

/-- What `decide` has checked when it makes a decision. -/
structure Decided (sha : Sha256) (s : State) (identity : IdentityContext) (request : DecideRequest)
    (approval : ActionApprovalRequest) (plan : RemediationPlan) (decision : ApprovalDecision) :
    Prop where
  human : identity.principalKind = .human
  stored : s.approvals (identity.tenantId.val, request.approvalId) = some approval
  planned : s.plans (identity.tenantId.val, approval.planId.val) = some plan
  pending : ∃ projection, s.projections (identity.tenantId.val, plan.planId.val) = some projection ∧
    projection.approvalId = some request.approvalId ∧
    (projection.version : Int) = request.expectedVersion ∧ projection.status = .approvalPending
  made : ∃ policy role time, s.policies plan.tenantId.val = some policy ∧
    decideRole sha identity request approval plan policy = .ok role ∧
    buildDecision sha identity approval plan policy role request.disposition request.approvalId
      request.commandId request.rationale time = .ok decision

/-- The effect a call asks for, with the statuses it is permitted in. -/
def Op.effect : Op → Option (IdentityContext × EffectRequest × List RemediationStatus)
  | .preflight identity request => some (identity, request, [.approved, .preflight])
  | .execute identity request => some (identity, request, [.preflight, .executing, .succeeded])
  | .reconcile identity request => some (identity, request, [.ambiguous, .reconciling, .succeeded])
  | .verify identity request _ _ =>
    some (identity, request, [.succeeded, .verified, .verificationFailed])
  | .rollback identity request =>
    some (identity, request, [.failed, .succeeded, .verificationFailed, .rolledBack])
  | _ => none

/-- The call asks for an effect, and its scope is checked. -/
def InScope (sha : Sha256) (ports : Ports) (s : State) (op : Op) (request : EffectRequest)
    (scope : EffectScope) : Prop :=
  ∃ identity statuses, op.effect = some (identity, request, statuses) ∧
    Scoped sha ports s identity request.planId request.actionId statuses scope

def AdapterCall.intent : AdapterCall → ActionIntent
  | .dryRun intent => intent
  | .observe intent => intent
  | .execute intent => intent
  | .compensate intent => intent

/-- Which method makes which calls of the adapter. -/
def Op.mayCall : Op → AdapterCall → Prop
  | .preflight _ _, .dryRun _ => True
  | .execute _ _, .observe _ => True
  | .execute _ _, .execute _ => True
  | .reconcile _ _, .observe _ => True
  | .verify _ _ _ _, .observe _ => True
  | .rollback _ _, .compensate _ => True
  | _, _ => False

/-- An intent for the action a call asks for, in its checked scope. -/
def Intended (sha : Sha256) (ports : Ports) (s : State) (op : Op) (intent : ActionIntent) : Prop :=
  ∃ request scope dryRun time, InScope sha ports s op request scope ∧
    buildIntent sha scope request dryRun time = .ok intent

/-! ## The facts -/

/-- The fact that a call begun in `s` records in `t`: plan, type, command and payload. -/
inductive Records (sha : Sha256) (ports : Ports) (s t : State) :
    Op → String × String → RemediationFactType → String → Fields → Prop
  | proposal (identity : IdentityContext) (plan : RemediationPlan) (commandId : String) :
    Records sha ports s t (.propose identity plan commandId) plan.key .proposalRecorded commandId
      (Fields.of [("run_id", .str plan.runId.val), ("plan_digest", .str (plan.digest sha).val),
        ("fence_token", .str (fenceOf sha plan).val)])
  | policy (identity : IdentityContext) (plan : RemediationPlan) (commandId : String)
    (current : ActionPolicy) (hcurrent : s.policies plan.tenantId.val = some current) :
    Records sha ports s t (.propose identity plan commandId) plan.key .policyDecided
      (commandId ++ ":policy")
      (Fields.of [("allowed", .bool true), ("policy_digest", .str (current.digest sha).val),
        ("policy_revision", .int current.revision)])
  | request (identity : IdentityContext) (planId : String) (expectedVersion : Int)
    (commandId : String) (plan : RemediationPlan) (approval : ActionApprovalRequest)
    (hplan : s.plans (identity.tenantId.val, planId) = some plan)
    (happroval : t.approvals approval.key = some approval) :
    Records sha ports s t (.requestApproval identity planId expectedVersion commandId) plan.key
      .approvalRequested commandId
      (Fields.of [("approval_id", .str approval.approvalId.val),
        ("approval_digest", .str (approval.digest sha).val),
        ("expires_at", .str approval.expiresAt.isoformat),
        ("quorum", .int approval.requirement.quorum)])
  | expiry (identity : IdentityContext) (request : DecideRequest) (approval : ActionApprovalRequest)
    (plan : RemediationPlan)
    (happroval : s.approvals (identity.tenantId.val, request.approvalId) = some approval)
    (hplan : s.plans (identity.tenantId.val, approval.planId.val) = some plan) :
    Records sha ports s t (.decide identity request) plan.key .approvalExpired request.commandId
      (Fields.of [("approval_id", .str request.approvalId)])
  | decision (identity : IdentityContext) (request : DecideRequest)
    (approval : ActionApprovalRequest) (plan : RemediationPlan) (decision : ApprovalDecision)
    (hdecided : Decided sha s identity request approval plan decision) :
    Records sha ports s t (.decide identity request) plan.key
      (decisionFact approval request.disposition
        (t.decisions (identity.tenantId.val, request.approvalId))) request.commandId
      (Fields.of [("approval_id", .str request.approvalId),
        ("approval_digest", .str (approval.digest sha).val),
        ("decision_digest", .str (decision.digest sha).val),
        ("grant_count",
          .int (grantCount (t.decisions (identity.tenantId.val, request.approvalId))))])
  | revocation (identity : IdentityContext) (approvalId : String) (expectedVersion : Int)
    (commandId rationale : String) (approval : ActionApprovalRequest)
    (happroval : s.approvals (identity.tenantId.val, approvalId) = some approval) :
    Records sha ports s t (.revoke identity approvalId expectedVersion commandId rationale)
      (identity.tenantId.val, approval.planId.val) .approvalRevoked commandId
      (Fields.of [("approval_id", .str approvalId), ("reason_code", .str "human_revocation")])
  | preflightIntent (identity : IdentityContext) (request : EffectRequest) (scope : EffectScope)
    (intent : ActionIntent) (hscope : InScope sha ports s (.preflight identity request) request scope) :
    Records sha ports s t (.preflight identity request) scope.plan.key .preflightRequested
      (request.operationId ++ ":intent")
      (Fields.of [("action_id", .str request.actionId),
        ("action_digest", .str (intent.action.digest sha).val)])
  | preflightFailed (identity : IdentityContext) (request : EffectRequest) (scope : EffectScope)
    (receipt : ActionReceipt)
    (hscope : InScope sha ports s (.preflight identity request) request scope) :
    Records sha ports s t (.preflight identity request) scope.plan.key .executionFailed
      (request.operationId ++ ":result")
      (Fields.of [("detail_code", .str receipt.detailCode.val)])
  | preflightSucceeded (identity : IdentityContext) (request : EffectRequest) (scope : EffectScope)
    (receipt : ActionReceipt)
    (hscope : InScope sha ports s (.preflight identity request) request scope) :
    Records sha ports s t (.preflight identity request) scope.plan.key .dryRunSucceeded
      (request.operationId ++ ":result")
      (Fields.of [("effect_receipt_digest", .str (receipt.digest sha).val)])
  | executionIntent (identity : IdentityContext) (request : EffectRequest) (scope : EffectScope)
    (intent : ActionIntent) (hscope : InScope sha ports s (.execute identity request) request scope) :
    Records sha ports s t (.execute identity request) scope.plan.key .executionRequested
      (request.operationId ++ ":intent")
      (Fields.of [("action_id", .str request.actionId),
        ("idempotency_key", .str intent.action.idempotencyKey.val),
        ("fence_token", .str scope.projection.fenceToken.val)])
  | executionStarted (identity : IdentityContext) (request : EffectRequest) (scope : EffectScope)
    (hscope : InScope sha ports s (.execute identity request) request scope) :
    Records sha ports s t (.execute identity request) scope.plan.key .executionStarted
      (request.operationId ++ ":started:" ++ request.attempt.repr)
      (Fields.of [("attempt", .int request.attempt)])
  | executionResult (identity : IdentityContext) (request : EffectRequest) (scope : EffectScope)
    (receipt : ActionReceipt) (factType : RemediationFactType)
    (hscope : InScope sha ports s (.execute identity request) request scope)
    (hfact : executionFact receipt.outcome = some factType) :
    Records sha ports s t (.execute identity request) scope.plan.key factType
      (request.operationId ++ ":result")
      (Fields.of [("effect_receipt_digest", .str (receipt.digest sha).val),
        ("detail_code", .str receipt.detailCode.val)])
  | reconciliationStarted (identity : IdentityContext) (request : EffectRequest)
    (scope : EffectScope) (hscope : InScope sha ports s (.reconcile identity request) request scope) :
    Records sha ports s t (.reconcile identity request) scope.plan.key .reconciliationStarted
      (request.operationId ++ ":intent") (Fields.of [("action_id", .str request.actionId)])
  | reconciliationResolved (identity : IdentityContext) (request : EffectRequest)
    (scope : EffectScope) (receipt : ActionReceipt)
    (hscope : InScope sha ports s (.reconcile identity request) request scope) :
    Records sha ports s t (.reconcile identity request) scope.plan.key .reconciliationResolved
      (request.operationId ++ ":result")
      (Fields.of [("effect_receipt_digest", .str (receipt.digest sha).val)])
  | escalation (identity : IdentityContext) (request : EffectRequest) (scope : EffectScope)
    (hscope : InScope sha ports s (.reconcile identity request) request scope) :
    Records sha ports s t (.reconcile identity request) scope.plan.key .escalated
      (request.operationId ++ ":escalate")
      (Fields.of [("reason_code", .str "reconciliation_inconclusive")])
  | verificationRequested (identity : IdentityContext) (request : EffectRequest)
    (effectReceipt : ActionReceipt) (freshEvidence : List Citation) (scope : EffectScope)
    (hscope : InScope sha ports s (.verify identity request effectReceipt freshEvidence) request
      scope) :
    Records sha ports s t (.verify identity request effectReceipt freshEvidence) scope.plan.key
      .verificationRequested (request.operationId ++ ":intent")
      (Fields.of [("effect_receipt_digest", .str (effectReceipt.digest sha).val)])
  | verificationResult (identity : IdentityContext) (request : EffectRequest)
    (effectReceipt : ActionReceipt) (freshEvidence : List Citation) (scope : EffectScope)
    (record : VerificationRecord)
    (hscope : InScope sha ports s (.verify identity request effectReceipt freshEvidence) request
      scope) :
    Records sha ports s t (.verify identity request effectReceipt freshEvidence) scope.plan.key
      (if record.postconditionsSatisfied = true then .verified else .verificationFailed)
      (request.operationId ++ ":result")
      (Fields.of [("verification_digest", .str (record.digest sha).val)])
  | rollbackRequested (identity : IdentityContext) (request : EffectRequest) (scope : EffectScope)
    (hscope : InScope sha ports s (.rollback identity request) request scope) :
    Records sha ports s t (.rollback identity request) scope.plan.key .rollbackRequested
      (request.operationId ++ ":intent") (Fields.of [("action_id", .str request.actionId)])
  | rollbackResult (identity : IdentityContext) (request : EffectRequest) (scope : EffectScope)
    (receipt : ActionReceipt)
    (hscope : InScope sha ports s (.rollback identity request) request scope) :
    Records sha ports s t (.rollback identity request) scope.plan.key
      (if receipt.outcome = .compensated then .rollbackSucceeded else .rollbackFailed)
      (request.operationId ++ ":result")
      (Fields.of [("effect_receipt_digest", .str (receipt.digest sha).val),
        ("detail_code", .str receipt.detailCode.val)])

/-- The digest of the last fact of a plan. -/
def State.headDigest (t : State) (key : String × String) : Digest :=
  ((t.facts key).getLast?.map (·.canonicalDigest)).getD zeroHash

/-- What `append` has checked when it records a fact in `t`. -/
structure Recorded (sha : Sha256) (t : State) (key : String × String)
    (factType : RemediationFactType) (commandId : String) (payload : Fields)
    (fact : RemediationFact) (projection : RemediationProjection) : Prop where
  fresh : t.commands (key.1, commandId) = none
  bounded : (t.facts key).length < maxFacts
  built : ∃ actor time, buildFact sha key.1 key.2 (t.facts key).length (t.headDigest key) factType
    commandId actor time payload = .ok fact
  reduced : reduceRemediation (t.projections key) fact = .ok projection

/-! ## What a call may do -/

/-- The events of a call that was begun in `s`, in a state `t` on its way. -/
inductive May (sha : Sha256) (ports : Ports) (s : State) (op : Op) (t : State) : Event → Prop
  | tick : May sha ports s op t .tick
  | call (call : AdapterCall) (hcall : op.mayCall call)
    (hintent : Intended sha ports s op call.intent) : May sha ports s op t (.call call)
  | record (key : String × String) (factType : RemediationFactType) (commandId : String)
    (payload : Fields) (fact : RemediationFact) (projection : RemediationProjection)
    (hrecords : Records sha ports s t op key factType commandId payload)
    (hrecorded : Recorded sha t key factType commandId payload fact projection) :
    May sha ports s op t (.record key (key.1, commandId)
      (key.2, commandFingerprint sha factType payload) fact projection)
  | plan (identity : IdentityContext) (plan : RemediationPlan) (commandId : String)
    (hop : op = .propose identity plan commandId) (htenant : plan.tenantId = identity.tenantId)
    (hsame : ∀ existing, t.plans plan.key = some existing → existing.digest sha = plan.digest sha) :
    May sha ports s op t (.plan plan)
  | approval (identity : IdentityContext) (planId : String) (expectedVersion : Int)
    (commandId : String) (plan : RemediationPlan) (policy : ActionPolicy) (n : Nat)
    (approval : ActionApprovalRequest)
    (hop : op = .requestApproval identity planId expectedVersion commandId)
    (hplan : s.plans (identity.tenantId.val, planId) = some plan)
    (hpolicy : s.policies plan.tenantId.val = some policy)
    (hbuilt : buildApproval sha plan policy (actorRef sha identity) (ports.clock n) = .ok approval)
    (hsame : ∀ existing, t.approvals approval.key = some existing →
      existing.digest sha = approval.digest sha) :
    May sha ports s op t (.approval approval)
  | decision (identity : IdentityContext) (request : DecideRequest)
    (approval : ActionApprovalRequest) (plan : RemediationPlan) (decision : ApprovalDecision)
    (hop : op = .decide identity request)
    (hdecided : Decided sha s identity request approval plan decision)
    (hfresh : t.decisionCommands (decision.tenantId.val, decision.commandId.val) = none)
    (hother : ∀ item ∈ t.decisions decision.key, item.approverRef ≠ decision.approverRef) :
    May sha ports s op t (.decision decision (decision.digest sha))
  | verification (identity : IdentityContext) (request : EffectRequest)
    (effectReceipt : ActionReceipt) (freshEvidence : List Citation) (scope : EffectScope)
    (record : VerificationRecord)
    (hop : op = .verify identity request effectReceipt freshEvidence)
    (hscope : InScope sha ports s op request scope)
    (hbuilt : ∃ intent observed time, Intended sha ports s op intent ∧
      buildVerification sha scope.plan intent.action request.operationId effectReceipt freshEvidence
        observed time = .ok record) :
    May sha ports s op t (.verification record)
  | policy (policy : ActionPolicy) (hop : op = .replacePolicy policy)
    (hnewer : ∀ current, t.policies policy.tenantId.val = some current →
      current.revision < policy.revision) :
    May sha ports s op t (.policy policy)
  | claim (key : String × String) (claim : EffectClaim) (hop : op.effect ≠ none) :
    May sha ports s op t (.claim key claim)
  | quota (request : EffectRequest) (scope : EffectScope) (decision : EffectQuotaDecision)
    (remaining : String → Int) (hscope : InScope sha ports s op request scope) :
    May sha ports s op t (.quota (scope.plan.tenantId.val,
      (reservationOf sha scope.plan request.actionId).val) decision remaining)

/-! ## The operations of the stores -/

section Operations

variable {sha : Sha256} {ports : Ports} {s t : State} {op : Op} {α β : Type}

/-- A body on the way of the call `op`, begun in `s`: it goes on from `t` by events of the call, and
    `P` holds where it returns. -/
abbrev Goes (sha : Sha256) (ports : Ports) (s : State) (op : Op) (x : Action α) (t : State)
    (P : α → State → Prop) : Prop :=
  Traced Event.apply (May sha ports s op) x t P

/-- Questions to the ports, in any discipline that allows them. -/
theorem now_traced {L : State → Event → Prop} (htick : ∀ t, L t .tick) :
    Traced Event.apply L (now ports) t
      (fun time t' => time = ports.clock t.tick ∧ t' = t.advance 1) := by
  refine Traced.reading (Traced.write Event.tick rfl (htick t) ?_)
  exact Traced.ret ⟨rfl, rfl⟩

theorem now_goes : Goes sha ports s op (now ports) t
    (fun time t' => time = ports.clock t.tick ∧ t' = t.advance 1) :=
  now_traced (fun _ => .tick)

theorem authorize_traced {L : State → Event → Prop} (htick : ∀ t, L t .tick)
    {identity : IdentityContext} {action : PolicyAction} {risk : RiskLevel} :
    Traced Event.apply L (authorize ports identity action risk) t
      (fun _ t' => t' = t.advance 1) := by
  refine Traced.reading (Traced.write Event.tick rfl (htick t) ?_)
  exact Traced.checked (fun _ => rfl)

theorem authorize_goes {identity : IdentityContext} {action : PolicyAction} {risk : RiskLevel} :
    Goes sha ports s op (authorize ports identity action risk) t
      (fun _ t' => t' = t.advance 1) :=
  authorize_traced (fun _ => .tick)

theorem callAdapter_traced {L : State → Event → Prop} {call : AdapterCall}
    {answer : Nat → Except Error α} (hcall : L t (.call call)) :
    Traced Event.apply L (callAdapter call answer) t
      (fun a t' => answer t.tick = .ok a ∧ t' = Event.apply (.call call) t) := by
  refine Traced.reading (Traced.write (Event.call call) rfl hcall ?_)
  show Traced _ _ (Exec.lift (answer t.tick)) _ _
  cases hanswer : answer t.tick with
  | ok a => exact Traced.ret ⟨rfl, rfl⟩
  | error e => exact Traced.raised e

theorem callAdapter_goes {call : AdapterCall} {answer : Nat → Except Error α}
    (hcall : op.mayCall call) (hintent : Intended sha ports s op call.intent) :
    Goes sha ports s op (callAdapter call answer) t
      (fun a t' => answer t.tick = .ok a ∧ t' = Event.apply (.call call) t) :=
  callAdapter_traced (May.call call hcall hintent)

theorem requireActionPolicy_traced {L : State → Event → Prop} (htick : ∀ t, L t .tick)
    {plan : RemediationPlan} {consumeQuota : Bool} :
    Traced Event.apply L (requireActionPolicy ports plan consumeQuota) t (fun policy t' =>
      t.policies plan.tenantId.val = some policy ∧
      refusal policy plan consumeQuota (ports.clock t.tick) = none ∧ t' = t.advance 1) := by
  refine Traced.reading (Traced.bind (now_traced htick) ?_)
  rintro time t' ⟨rfl, rfl⟩
  cases hpolicy : t.policies plan.tenantId.val with
  | none => exact Traced.raised _
  | some policy =>
    dsimp only
    cases hrefusal : refusal policy plan consumeQuota (ports.clock t.tick) with
    | some reason => exact Traced.raised _
    | none => exact Traced.ret ⟨rfl, hrefusal, rfl⟩

theorem requireActionPolicy_goes {plan : RemediationPlan} {consumeQuota : Bool} :
    Goes sha ports s op (requireActionPolicy ports plan consumeQuota) t (fun policy t' =>
      t.policies plan.tenantId.val = some policy ∧
      refusal policy plan consumeQuota (ports.clock t.tick) = none ∧ t' = t.advance 1) :=
  requireActionPolicy_traced (fun _ => .tick)

theorem requirePlan_goes {tenantId planId : String} :
    Goes sha ports s op (requirePlan tenantId planId) t
      (fun plan t' => t.plans (tenantId, planId) = some plan ∧ t' = t) := by
  refine Traced.reading ?_
  cases hplan : t.plans (tenantId, planId) with
  | none => exact Traced.raised _
  | some plan => exact Traced.ret ⟨rfl, rfl⟩

theorem requireApproval_goes {tenantId approvalId : String} :
    Goes sha ports s op (requireApproval tenantId approvalId) t
      (fun approval t' => t.approvals (tenantId, approvalId) = some approval ∧ t' = t) := by
  refine Traced.reading ?_
  cases happroval : t.approvals (tenantId, approvalId) with
  | none => exact Traced.raised _
  | some approval => exact Traced.ret ⟨rfl, rfl⟩

/-- What `append` leaves: a known command leaves the state as it is, a new one records a fact. -/
inductive Appended (sha : Sha256) (t : State) (key : String × String)
    (factType : RemediationFactType) (commandId : String) (payload : Fields)
    (projection : RemediationProjection) : State → Prop
  | replayed (hknown : t.commands (key.1, commandId) ≠ none)
    (hprojection : t.projections key = some projection) :
    Appended sha t key factType commandId payload projection t
  | recorded (fact : RemediationFact)
    (h : Recorded sha t key factType commandId payload fact projection) :
    Appended sha t key factType commandId payload projection
      (t.record key (key.1, commandId) (key.2, commandFingerprint sha factType payload) fact
        projection)

theorem append_traced {L : State → Event → Prop} {tenantId planId : String} {expectedVersion : Int}
    {factType : RemediationFactType} {commandId actor : String} {time : Datetime} {payload : Fields}
    (hrecord : ∀ fact projection,
      Recorded sha t (tenantId, planId) factType commandId payload fact projection →
      L t (.record (tenantId, planId) (tenantId, commandId)
        (planId, commandFingerprint sha factType payload) fact projection)) :
    Traced Event.apply L
      (append sha tenantId planId expectedVersion factType commandId actor time payload) t
      (fun projection t' =>
        Appended sha t (tenantId, planId) factType commandId payload projection t') := by
  refine Traced.reading ?_
  cases hknown : t.commands (tenantId, commandId) with
  | some existing =>
    refine Traced.check (fun _ => ?_)
    cases hprojection : t.projections (tenantId, planId) with
    | none => exact Traced.raised _
    | some projection =>
      refine Traced.ret (.replayed ?_ hprojection)
      rw [hknown]
      exact Option.some_ne_none existing
  | none =>
    refine Traced.check (fun hbound => Traced.check (fun _ => ?_))
    refine Traced.attempt (fun fact hfact => Traced.attempt (fun projection hprojection => ?_))
    have hrecorded : Recorded sha t (tenantId, planId) factType commandId payload fact projection :=
      ⟨hknown, hbound, ⟨actor, time, hfact⟩, hprojection⟩
    refine Traced.write (Event.record (tenantId, planId) (tenantId, commandId)
      (planId, commandFingerprint sha factType payload) fact projection) rfl
      (hrecord fact projection hrecorded) ?_
    exact Traced.ret (.recorded fact hrecorded)

theorem append_goes {tenantId planId : String} {expectedVersion : Int}
    {factType : RemediationFactType} {commandId actor : String} {time : Datetime} {payload : Fields}
    (hrecords : Records sha ports s t op (tenantId, planId) factType commandId payload) :
    Goes sha ports s op
      (append sha tenantId planId expectedVersion factType commandId actor time payload) t
      (fun projection t' =>
        Appended sha t (tenantId, planId) factType commandId payload projection t') :=
  append_traced fun fact projection hrecorded =>
    May.record (tenantId, planId) factType commandId payload fact projection hrecords hrecorded

theorem putPlan_goes {identity : IdentityContext} {plan : RemediationPlan} {commandId : String}
    (hop : op = .propose identity plan commandId) (htenant : plan.tenantId = identity.tenantId) :
    Goes sha ports s op (putPlan sha plan) t (fun _ t' => t' = Event.apply (.plan plan) t) := by
  refine Traced.reading (Traced.check (fun hsame => ?_))
  exact Traced.wrote (Event.plan plan) rfl (May.plan identity plan commandId hop htenant hsame) rfl

theorem putApproval_goes {identity : IdentityContext} {planId commandId : String}
    {expectedVersion : Int} {plan : RemediationPlan} {policy : ActionPolicy} {n : Nat}
    {approval : ActionApprovalRequest}
    (hop : op = .requestApproval identity planId expectedVersion commandId)
    (hplan : s.plans (identity.tenantId.val, planId) = some plan)
    (hpolicy : s.policies plan.tenantId.val = some policy)
    (hbuilt : buildApproval sha plan policy (actorRef sha identity) (ports.clock n)
      = .ok approval) :
    Goes sha ports s op (putApproval sha approval) t
      (fun _ t' => t' = Event.apply (.approval approval) t) := by
  refine Traced.reading (Traced.check (fun hsame => ?_))
  exact Traced.wrote (Event.approval approval) rfl (May.approval identity planId expectedVersion
    commandId plan policy n approval hop hplan hpolicy hbuilt hsame) rfl

/-- A repeated decision leaves the store as it is. -/
theorem addDecision_goes {identity : IdentityContext} {request : DecideRequest}
    {approval : ActionApprovalRequest} {plan : RemediationPlan} {decision : ApprovalDecision}
    (hop : op = .decide identity request)
    (hdecided : Decided sha s identity request approval plan decision) :
    Goes sha ports s op (addDecision sha decision) t (fun _ _ => True) := by
  refine Traced.reading ?_
  dsimp only
  cases hcommand : t.decisionCommands (decision.tenantId.val, decision.commandId.val) with
  | some existing => exact Traced.checked (fun _ => trivial)
  | none =>
    refine Traced.check (fun hother => ?_)
    exact Traced.wrote (Event.decision decision (decision.digest sha)) rfl (May.decision identity
      request approval plan decision hop hdecided hcommand hother) trivial

theorem replacePolicy_goes {policy : ActionPolicy} (hop : op = .replacePolicy policy) :
    Goes sha ports s op (replacePolicy policy) t (fun _ _ => True) := by
  refine Traced.reading (Traced.check (fun hnewer => ?_))
  exact Traced.wrote (Event.policy policy) rfl (May.policy policy hop hnewer) trivial

theorem putVerification_goes {identity : IdentityContext} {request : EffectRequest}
    {effectReceipt : ActionReceipt} {freshEvidence : List Citation} {scope : EffectScope}
    {intent : ActionIntent} {observed : ActionObservation} {time : Datetime}
    {record : VerificationRecord} (hop : op = .verify identity request effectReceipt freshEvidence)
    (hscope : InScope sha ports s op request scope) (hintent : Intended sha ports s op intent)
    (hbuilt : buildVerification sha scope.plan intent.action request.operationId effectReceipt
      freshEvidence observed time = .ok record) :
    Goes sha ports s op (putVerification sha record) t (fun _ _ => True) := by
  refine Traced.reading (Traced.check (fun _ => ?_))
  exact Traced.wrote (Event.verification record) rfl (May.verification identity request effectReceipt
    freshEvidence scope record hop hscope ⟨intent, observed, time, hintent, hbuilt⟩) trivial

/-- A claim that is granted with a receipt has kept it from before. -/
theorem claimEffect_traced {L : State → Event → Prop} {intent : ActionIntent} {workerRef : String}
    {time claimUntil : Datetime} (hclaim : ∀ key c, L t (.claim key c)) :
    Traced Event.apply L (claimEffect sha intent workerRef time claimUntil) t (fun record t' =>
      t'.tick = t.tick ∧ ∀ receipt, record.receipt = some receipt →
        ∃ c, t.claims (intent.tenantId.val, intent.operationId.val) = some c ∧
          c.receipt = some receipt ∧ c.binding = intent.binding sha) := by
  refine Traced.check (fun _ => Traced.reading ?_)
  dsimp only
  cases hc : t.claims (intent.tenantId.val, intent.operationId.val) with
  | none =>
    refine Traced.write (Event.claim _ _) (by rfl) (hclaim _ _) (Traced.ret ⟨rfl, ?_⟩)
    rintro receipt ⟨⟩
  | some existing =>
    refine Traced.check (fun hbinding => Traced.check (fun _ => ?_))
    split
    · refine Traced.check (fun _ => Traced.write (Event.claim _ _) (by rfl) (hclaim _ _) ?_)
      exact Traced.ret ⟨rfl, fun receipt hreceipt => ⟨existing, rfl, hreceipt, hbinding⟩⟩
    · exact Traced.ret ⟨rfl, fun receipt hreceipt => ⟨existing, rfl, hreceipt, hbinding⟩⟩

theorem completeEffect_traced {L : State → Event → Prop} {receipt : ActionReceipt}
    {claimToken : Identifier} (hclaim : ∀ key c, L t (.claim key c)) :
    Traced Event.apply L (completeEffect sha receipt claimToken) t (fun _ _ => True) := by
  refine Traced.reading ?_
  dsimp only
  cases t.claims (receipt.tenantId.val, receipt.operationId.val) with
  | none => exact Traced.raised _
  | some existing =>
    refine Traced.check (fun _ => ?_)
    cases existing.receipt with
    | some recorded => exact Traced.checked (fun _ => trivial)
    | none => exact Traced.wrote (Event.claim _ _) (by rfl) (hclaim _ _) trivial

/-- The events before the first fact of an effect: questions and the quota reservation. -/
def Checks (sha : Sha256) (ports : Ports) (s : State) (op : Op) (t : State) (i : Event) : Prop :=
  May sha ports s op t i ∧ ∀ key command entry fact projection,
    i ≠ .record key command entry fact projection

/-- The ledgers of two states are the same. -/
structure SameLedger (s t : State) : Prop where
  facts : t.facts = s.facts
  commands : t.commands = s.commands
  projections : t.projections = s.projections

theorem Checks.sameLedger {t' : State} (h : Path Event.apply (Checks sha ports s op) t t') :
    SameLedger t t' := by
  refine h.relates (fun _ => ⟨rfl, rfl, rfl⟩) ?_ ?_
  · intro a b c hab hbc
    exact ⟨hbc.facts.trans hab.facts, hbc.commands.trans hab.commands,
      hbc.projections.trans hab.projections⟩
  · intro u i hi
    cases i with
    | record key command entry fact projection => exact absurd rfl (hi.2 _ _ _ _ _)
    | tick => exact ⟨rfl, rfl, rfl⟩
    | call => exact ⟨rfl, rfl, rfl⟩
    | plan => exact ⟨rfl, rfl, rfl⟩
    | approval => exact ⟨rfl, rfl, rfl⟩
    | decision => exact ⟨rfl, rfl, rfl⟩
    | verification => exact ⟨rfl, rfl, rfl⟩
    | policy => exact ⟨rfl, rfl, rfl⟩
    | claim => exact ⟨rfl, rfl, rfl⟩
    | quota => exact ⟨rfl, rfl, rfl⟩

theorem Checks.tick (t : State) : Checks sha ports s op t .tick := ⟨.tick, by simp⟩

theorem reserveQuota_traced {L : State → Event → Prop} {tenantId : String} {reservationId : Identifier}
    {units : Nat}
    (hquota : ∀ t decision remaining, L t (.quota (tenantId, reservationId.val) decision remaining)) :
    Traced Event.apply L (reserveQuota tenantId reservationId units) t
      (fun _ t' => t'.tick = t.tick) := by
  refine Traced.check (fun _ => Traced.reading ?_)
  dsimp only
  cases t.reservations (tenantId, reservationId.val) with
  | some existing => exact Traced.ret rfl
  | none => exact Traced.write (Event.quota _ _ _) (by rfl) (hquota _ _ _) (Traced.ret rfl)

end Operations

/-! ## The scope of an effect -/

section Scope

variable {sha : Sha256} {ports : Ports} {s t : State} {op : Op} {identity : IdentityContext}

theorem scopeRecords_traced {L : State → Event → Prop} {planId actionId : String} :
    Traced Event.apply L (scopeRecords identity planId actionId) t (fun scope t' =>
      t.plans (identity.tenantId.val, planId) = some scope.plan ∧
      t.projections (identity.tenantId.val, planId) = some scope.projection ∧
      (∃ id, scope.projection.approvalId = some id ∧
        t.approvals (identity.tenantId.val, id) = some scope.approval) ∧
      t.policies identity.tenantId.val = some scope.policy ∧
      (∃ a ∈ scope.plan.actions, a.actionId.val = actionId) ∧ t' = t) := by
  refine Traced.reading ?_
  cases hplan : t.plans (identity.tenantId.val, planId) with
  | none => exact Traced.raised _
  | some plan =>
    cases hprojection : t.projections (identity.tenantId.val, planId) with
    | none => exact Traced.raised _
    | some projection =>
      dsimp only
      cases hid : projection.approvalId with
      | none => exact Traced.raised _
      | some id =>
        refine Traced.check (fun haction => ?_)
        cases happroval : t.approvals (identity.tenantId.val, id) with
        | none => exact Traced.raised _
        | some approval =>
          dsimp only
          cases hpolicy : t.policies identity.tenantId.val with
          | none => exact Traced.raised _
          | some policy =>
            exact Traced.ret ⟨rfl, rfl, ⟨id, hid, happroval⟩, rfl, haction, rfl⟩

theorem checkScope_traced {L : State → Event → Prop} (htick : ∀ t, L t .tick)
    {scope : EffectScope} {statuses : List RemediationStatus} :
    Traced Event.apply L (checkScope sha ports identity scope statuses) t (fun _ t' =>
      (scope.approval.planDigest = scope.plan.digest sha ∧
        some (scope.approval.digest sha).val = scope.projection.approvalDigest ∧
        scope.approval.policySnapshot = scope.policy.snapshot sha ∧
        scope.plan.policySnapshot = scope.policy.snapshot sha) ∧
      ports.clock t.tick < scope.approval.expiresAt ∧
      ports.clock (t.tick + 1) < scope.plan.expiresAt ∧
      (∀ item ∈ t.decisions (identity.tenantId.val, scope.approval.approvalId.val),
        item.disposition ≠ .deny) ∧
      scope.approval.requirement.quorum ≤ (approvers (exactDecision sha scope)
        (t.decisions (identity.tenantId.val, scope.approval.approvalId.val))).length ∧
      scope.projection.status ∈ statuses ∧ t' = t.advance 2) := by
  refine Traced.check (fun hdigests => Traced.bind (now_traced htick) ?_)
  rintro time t₁ ⟨rfl, rfl⟩
  refine Traced.check (fun happroval => Traced.bind (now_traced htick) ?_)
  rintro time t₂ ⟨rfl, rfl⟩
  refine Traced.check (fun hplan => Traced.reading (Traced.check (fun hdeny => ?_)))
  refine Traced.check (fun hquorum => Traced.checked (fun hstatus => ?_))
  exact ⟨hdigests, happroval, hplan, hdeny, hquorum, hstatus, rfl⟩

/-- **The scope of an effect.**  Where `validatedScope` returns, everything it checks holds of the
    state the call began in.  On its way it asks the ports five questions and reserves quota. -/
theorem validatedScope_along {L : State → Event → Prop} {request : EffectRequest}
    {statuses : List RemediationStatus} (htick : ∀ t, L t .tick)
    (hquota : ∀ t scope decision remaining, InScope sha ports s op request scope →
      L t (.quota (scope.plan.tenantId.val, (reservationOf sha scope.plan request.actionId).val) decision
        remaining))
    (hop : op.effect = some (identity, request, statuses)) :
    Traced Event.apply L
      (validatedScope sha ports identity request.planId request.actionId statuses) s
      (fun scope t => InScope sha ports s op request scope ∧ t.tick = s.tick + 5) := by
  refine Traced.bind (authorize_traced htick) ?_
  rintro - t₁ rfl
  refine Traced.bind scopeRecords_traced ?_
  rintro scope t₂ ⟨hplan, hprojection, happroval, hpolicy, haction, rfl⟩
  refine Traced.bind (checkScope_traced htick) ?_
  rintro - t₃ ⟨⟨hplanDigest, hdigest, hsnapshot, hplanSnapshot⟩, htime, hplanTime, hdeny, hquorum,
    hstatus, rfl⟩
  refine Traced.bind (requireActionPolicy_traced htick) ?_
  rintro policy t₄ ⟨hinstalled, hrefusal, rfl⟩
  refine Traced.bind (now_traced htick) ?_
  rintro - t₅ ⟨-, rfl⟩
  have hscope : InScope sha ports s op request scope :=
    ⟨identity, statuses, hop,
      { plan := hplan, projection := hprojection, approval := happroval, policy := hpolicy,
        action := haction, planDigest := hplanDigest, approvalDigest := hdigest,
        approvalPolicy := hsnapshot, planPolicy := hplanSnapshot, approvalTime := htime,
        planTime := hplanTime, undenied := hdeny, quorum := hquorum, status := hstatus,
        installed := ⟨policy, hinstalled, hrefusal⟩ }⟩
  refine Traced.bind (reserveQuota_traced fun t d remaining => hquota t scope d remaining hscope) ?_
  intro quota t₆ htime
  exact Traced.check (fun _ => Traced.ret ⟨hscope, htime⟩)

theorem validatedScope_traced {request : EffectRequest} {statuses : List RemediationStatus}
    (hop : op.effect = some (identity, request, statuses)) :
    Traced Event.apply (Checks sha ports s op)
      (validatedScope sha ports identity request.planId request.actionId statuses) s
      (fun scope _ => InScope sha ports s op request scope) :=
  (validatedScope_along Checks.tick
    (fun _ scope _ _ hscope => ⟨May.quota request scope _ _ hscope, by simp⟩) hop).weaken
      fun _ _ h => h.1

theorem validatedScope_goes {request : EffectRequest} {statuses : List RemediationStatus}
    (hop : op.effect = some (identity, request, statuses)) :
    Goes sha ports s op
      (validatedScope sha ports identity request.planId request.actionId statuses) s
      (fun scope _ => InScope sha ports s op request scope) :=
  (validatedScope_traced hop).mono_events (fun _ _ h => h.1)

theorem effectIntent_traced {L : State → Event → Prop} (htick : ∀ t, L t .tick)
    {request : EffectRequest} {scope : EffectScope} {dryRun : Bool}
    (hscope : InScope sha ports s op request scope) :
    Traced Event.apply L (effectIntent sha ports scope request dryRun) t (fun intent t' =>
      Intended sha ports s op intent ∧ t' = t.advance 1) := by
  refine Traced.bind (now_traced htick) ?_
  rintro time t' ⟨-, rfl⟩
  cases hbuilt : buildIntent sha scope request dryRun time with
  | error e => exact Traced.raised e
  | ok intent => exact Traced.ret ⟨⟨request, scope, dryRun, time, hscope, hbuilt⟩, rfl⟩

theorem effectIntent_goes {request : EffectRequest} {scope : EffectScope} {dryRun : Bool}
    (hscope : InScope sha ports s op request scope) :
    Goes sha ports s op (effectIntent sha ports scope request dryRun) t (fun intent t' =>
      Intended sha ports s op intent ∧ t' = t.advance 1) :=
  effectIntent_traced (fun _ => .tick) hscope

theorem appendNow_traced {L : State → Event → Prop} (htick : ∀ t, L t .tick) {plan : RemediationPlan}
    {expectedVersion : Int} {factType : RemediationFactType} {commandId : String} {actor : Identifier}
    {payload : Fields} (hrecord : ∀ fact projection,
      Recorded sha (t.advance 1) plan.key factType commandId payload fact projection →
      L (t.advance 1) (.record plan.key (plan.tenantId.val, commandId)
        (plan.planId.val, commandFingerprint sha factType payload) fact projection)) :
    Traced Event.apply L
      (appendNow sha ports plan expectedVersion factType commandId actor payload) t
      (fun projection t' =>
        Appended sha (t.advance 1) plan.key factType commandId payload projection t') := by
  refine Traced.bind (now_traced htick) ?_
  rintro time t' ⟨-, rfl⟩
  exact append_traced hrecord

theorem appendNow_goes {plan : RemediationPlan} {expectedVersion : Int}
    {factType : RemediationFactType} {commandId : String} {actor : Identifier} {payload : Fields}
    (hrecords : Records sha ports s (t.advance 1) op plan.key factType commandId payload) :
    Goes sha ports s op
      (appendNow sha ports plan expectedVersion factType commandId actor payload) t
      (fun projection t' =>
        Appended sha (t.advance 1) plan.key factType commandId payload projection t') :=
  appendNow_traced (fun _ => .tick) fun fact projection hrecorded =>
    May.record plan.key factType commandId payload fact projection hrecords hrecorded

theorem claimIntent_traced {L : State → Event → Prop} (htick : ∀ t, L t .tick)
    (hclaim : ∀ t key c, L t (.claim key c)) {intent : ActionIntent} {actor : Identifier} :
    Traced Event.apply L (claimIntent sha ports intent actor) t (fun record t' =>
      t'.tick = t.tick + 1 ∧ ∀ receipt, record.receipt = some receipt →
        ∃ c, t.claims (intent.tenantId.val, intent.operationId.val) = some c ∧
          c.receipt = some receipt ∧ c.binding = intent.binding sha) := by
  refine Traced.bind (now_traced htick) ?_
  rintro time t' ⟨-, rfl⟩
  exact claimEffect_traced (hclaim _)

theorem claimIntent_goes {intent : ActionIntent} {actor : Identifier} (hop : op.effect ≠ none) :
    Goes sha ports s op (claimIntent sha ports intent actor) t (fun _ _ => True) :=
  (claimIntent_traced (fun _ => .tick) fun _ key c => .claim key c hop).weaken fun _ _ _ => trivial

theorem completeIntent_traced {L : State → Event → Prop} (htick : ∀ t, L t .tick)
    (hclaim : ∀ t key c, L t (.claim key c)) {claim : EffectClaimRecord} {receipt : ActionReceipt} :
    Traced Event.apply L (completeIntent sha ports claim receipt) t (fun _ _ => True) := by
  refine Traced.bind (now_traced htick) ?_
  rintro time t' ⟨-, rfl⟩
  exact completeEffect_traced (hclaim _)

theorem completeIntent_goes {claim : EffectClaimRecord} {receipt : ActionReceipt}
    (hop : op.effect ≠ none) :
    Goes sha ports s op (completeIntent sha ports claim receipt) t (fun _ _ => True) :=
  completeIntent_traced (fun _ => .tick) fun _ key c => .claim key c hop

theorem ownReceipt_traced {L : State → Event → Prop} (htick : ∀ t, L t .tick) {intent : ActionIntent}
    {outcome : EffectOutcome} {detailCode : Identifier} {providerReceiptRef : Option Identifier} :
    Traced Event.apply L (ownReceipt ports intent outcome detailCode providerReceiptRef) t
      (fun receipt _ => receipt.outcome = outcome) := by
  refine Traced.bind (now_traced htick) ?_
  rintro time t' -
  exact Traced.ret rfl

theorem ownReceipt_goes {intent : ActionIntent} {outcome : EffectOutcome} {detailCode : Identifier}
    {providerReceiptRef : Option Identifier} :
    Goes sha ports s op (ownReceipt ports intent outcome detailCode providerReceiptRef) t
      (fun _ _ => True) :=
  (ownReceipt_traced fun _ => .tick).weaken fun _ _ _ => trivial

end Scope

/-! ## The methods -/

section Methods

variable {sha : Sha256} {ports : Ports} {s t : State} {identity : IdentityContext}
  {request : EffectRequest}

theorem propose_goes {plan : RemediationPlan} {commandId : String} :
    Goes sha ports s (.propose identity plan commandId) (propose sha ports identity plan commandId)
      s (fun _ _ => True) := by
  refine Traced.bind authorize_goes ?_
  rintro - t₁ rfl
  refine Traced.check (fun htenant => Traced.bind requireActionPolicy_goes ?_)
  rintro current t₂ ⟨hcurrent, -, rfl⟩
  refine Traced.check (fun _ => Traced.bind (putPlan_goes rfl htenant) ?_)
  rintro - t₃ rfl
  refine Traced.bind now_goes ?_
  rintro time t₄ ⟨-, rfl⟩
  refine Traced.bind (append_goes (.proposal identity plan commandId)) ?_
  intro projection t₅ _
  refine Traced.bind now_goes ?_
  rintro time' t₆ ⟨-, rfl⟩
  have hpolicy : s.policies plan.tenantId.val = some current := hcurrent
  exact (append_goes (.policy identity plan commandId current hpolicy)).weaken
    (fun _ _ _ => trivial)

theorem requestApproval_goes {planId commandId : String} {expectedVersion : Int} :
    Goes sha ports s (.requestApproval identity planId expectedVersion commandId)
      (requestApproval sha ports identity planId expectedVersion commandId) s
      (fun _ _ => True) := by
  refine Traced.bind authorize_goes ?_
  rintro - t₁ rfl
  refine Traced.bind requirePlan_goes ?_
  rintro plan t₂ ⟨hplan, rfl⟩
  refine Traced.bind requireActionPolicy_goes ?_
  rintro current t₃ ⟨hcurrent, -, rfl⟩
  refine Traced.bind now_goes ?_
  rintro time t₄ ⟨rfl, rfl⟩
  refine Traced.attempt (fun approval hbuilt => ?_)
  refine Traced.bind (putApproval_goes rfl hplan hcurrent hbuilt) ?_
  rintro - t₅ rfl
  refine Traced.bind (append_goes (.request identity planId expectedVersion commandId plan approval
    hplan (Function.update_self _ _ _))) ?_
  intro projection t₆ _
  exact Traced.ret trivial

theorem decide_goes {request : DecideRequest} :
    Goes sha ports s (.decide identity request) (decideApproval sha ports identity request) s
      (fun _ _ => True) := by
  refine Traced.bind authorize_goes ?_
  rintro - t₁ rfl
  refine Traced.check (fun hhuman => Traced.bind requireApproval_goes ?_)
  rintro approval t₂ ⟨happroval, rfl⟩
  refine Traced.bind requirePlan_goes ?_
  rintro plan t₃ ⟨hplan, rfl⟩
  refine Traced.reading ?_
  cases hprojection : (s.advance 1).projections (identity.tenantId.val, plan.planId.val) with
  | none => exact Traced.raised _
  | some projection =>
    refine Traced.check (fun hid => Traced.check (fun hversion => Traced.check (fun hstatus => ?_)))
    refine Traced.bind requireActionPolicy_goes ?_
    rintro policy t₄ ⟨hpolicy, -, rfl⟩
    refine Traced.bind now_goes ?_
    rintro time t₅ ⟨-, rfl⟩
    dsimp only
    split
    · -- the approval has expired: the fact is recorded, then the call raises
      refine Traced.bind (append_goes (.expiry identity request approval plan happroval hplan)) ?_
      intro _ _ _
      exact Traced.raised _
    · refine Traced.attempt (fun role hrole => Traced.attempt (fun decision hbuilt => ?_))
      have hdecided : Decided sha s identity request approval plan decision :=
        { human := hhuman, stored := happroval, planned := hplan,
          pending := ⟨projection, hprojection, hid, hversion, hstatus⟩,
          made := ⟨policy, role, time, hpolicy, hrole, hbuilt⟩ }
      refine Traced.bind (addDecision_goes rfl hdecided) ?_
      intro _ t₆ _
      refine Traced.reading (Traced.bind (append_goes
        (.decision identity request approval plan decision hdecided)) ?_)
      intro projection' t₇ _
      exact Traced.check (fun _ => Traced.ret trivial)

theorem revoke_goes {approvalId commandId rationale : String} {expectedVersion : Int} :
    Goes sha ports s (.revoke identity approvalId expectedVersion commandId rationale)
      (revoke sha ports identity approvalId expectedVersion commandId rationale) s
      (fun _ _ => True) := by
  refine Traced.bind authorize_goes ?_
  rintro - t₁ rfl
  refine Traced.check (fun _ => Traced.bind requireApproval_goes ?_)
  rintro approval t₂ ⟨happroval, rfl⟩
  refine Traced.reading ?_
  cases (s.advance 1).projections (identity.tenantId.val, approval.planId.val) with
  | none => exact Traced.raised _
  | some projection =>
    refine Traced.check (fun _ => Traced.check (fun _ => Traced.check (fun _ => ?_)))
    refine Traced.bind now_goes ?_
    rintro time t₃ ⟨-, rfl⟩
    have hstored : s.approvals (identity.tenantId.val, approvalId) = some approval := happroval
    exact (append_goes (.revocation identity approvalId expectedVersion commandId rationale approval
      hstored)).weaken (fun _ _ _ => trivial)

theorem getApproval_goes {approvalId : String} :
    Goes sha ports s (.get identity approvalId) (getApproval ports identity approvalId) s
      (fun _ _ => True) := by
  refine Traced.bind authorize_goes ?_
  rintro - t₁ rfl
  refine Traced.reading ?_
  cases (s.advance 1).approvals (identity.tenantId.val, approvalId) with
  | none => exact Traced.ret trivial
  | some approval =>
    dsimp only
    cases (s.advance 1).projections (identity.tenantId.val, approval.planId.val) with
    | none => exact Traced.raised _
    | some projection => exact Traced.ret trivial

theorem preflight_goes :
    Goes sha ports s (.preflight identity request) (preflight sha ports identity request) s
      (fun _ _ => True) := by
  refine Traced.bind (validatedScope_goes rfl) ?_
  intro scope t₁ hscope
  refine Traced.bind (effectIntent_goes hscope) ?_
  rintro intent t₂ ⟨hintent, rfl⟩
  refine Traced.bind (appendNow_goes (.preflightIntent identity request scope intent hscope)) ?_
  intro started t₃ _
  refine Traced.bind (callAdapter_goes trivial hintent) ?_
  intro receipt t₄ _
  split
  · refine Traced.bind (appendNow_goes (.preflightFailed identity request scope receipt hscope)) ?_
    intro _ _ _
    exact Traced.raised _
  · refine Traced.bind (appendNow_goes (.preflightSucceeded identity request scope receipt hscope)) ?_
    intro _ _ _
    exact Traced.ret trivial

theorem attemptEffect_goes {intent : ActionIntent}
    (hintent : Intended sha ports s (.execute identity request) intent) :
    Goes sha ports s (.execute identity request) (attemptEffect ports intent) t
      (fun _ _ => True) := by
  refine Traced.bind (callAdapter_goes trivial hintent) ?_
  intro before t₁ _
  split
  · exact ownReceipt_goes
  · split
    · exact ownReceipt_goes
    · split
      · exact ownReceipt_goes
      · refine Traced.weaken (callAdapter_goes trivial hintent) ?_
        intro _ _ _
        trivial

theorem executionReceipt_goes {scope : EffectScope} {actor : Identifier} {intent : ActionIntent}
    {claim : EffectClaimRecord} {requested : RemediationProjection}
    (hscope : InScope sha ports s (.execute identity request) request scope)
    (hintent : Intended sha ports s (.execute identity request) intent) :
    Goes sha ports s (.execute identity request)
      (executionReceipt sha ports scope request actor intent claim requested) t
      (fun _ _ => True) := by
  unfold executionReceipt
  cases claim.receipt with
  | some receipt => exact Traced.ret trivial
  | none =>
    refine Traced.bind (appendNow_goes (.executionStarted identity request scope hscope)) ?_
    intro started t₁ _
    refine Traced.bind (attemptEffect_goes hintent) ?_
    intro receipt t₂ _
    refine Traced.bind (completeIntent_goes (by exact Option.some_ne_none _)) ?_
    intro _ _ _
    exact Traced.ret trivial

theorem execute_goes :
    Goes sha ports s (.execute identity request) (executeAction sha ports identity request) s
      (fun _ _ => True) := by
  refine Traced.bind (validatedScope_goes rfl) ?_
  intro scope t₁ hscope
  refine Traced.bind (effectIntent_goes hscope) ?_
  rintro intent t₂ ⟨hintent, rfl⟩
  refine Traced.bind (appendNow_goes (.executionIntent identity request scope intent hscope)) ?_
  intro requested t₃ _
  refine Traced.bind (claimIntent_goes (by exact Option.some_ne_none _)) ?_
  intro claim t₄ _
  refine Traced.bind (executionReceipt_goes hscope hintent) ?_
  rintro ⟨receipt, resultVersion⟩ t₅ _
  dsimp only
  cases hfact : executionFact receipt.outcome with
  | none => exact Traced.raised _
  | some factType =>
    refine Traced.bind (appendNow_goes
      (.executionResult identity request scope receipt factType hscope hfact)) ?_
    intro _ t₆ _
    exact Traced.check (fun _ => Traced.check (fun _ => Traced.ret trivial))

theorem observedReceipt_goes {op : Op} {intent : ActionIntent} {observed : ActionObservation} :
    Goes sha ports s op (observedReceipt ports intent observed) t (fun _ _ => True) := by
  unfold observedReceipt
  split
  · exact ownReceipt_goes
  · exact ownReceipt_goes

theorem reconciledReceipt_goes {intent : ActionIntent} {claim : EffectClaimRecord}
    (hintent : Intended sha ports s (.reconcile identity request) intent) :
    Goes sha ports s (.reconcile identity request) (reconciledReceipt sha ports intent claim) t
      (fun _ _ => True) := by
  unfold reconciledReceipt
  cases claim.receipt with
  | some receipt => exact Traced.ret trivial
  | none =>
    refine Traced.bind (callAdapter_goes trivial hintent) ?_
    intro observed t₁ _
    refine Traced.bind observedReceipt_goes ?_
    intro receipt t₂ _
    refine Traced.bind (completeIntent_goes (by exact Option.some_ne_none _)) ?_
    intro _ _ _
    exact Traced.ret trivial

theorem startReconciliation_goes {scope : EffectScope} {actor : Identifier}
    (hscope : InScope sha ports s (.reconcile identity request) request scope) :
    Goes sha ports s (.reconcile identity request)
      (startReconciliation sha ports scope request actor) t (fun _ _ => True) := by
  unfold startReconciliation
  split
  · refine Traced.bind (appendNow_goes (.reconciliationStarted identity request scope hscope)) ?_
    intro _ _ _
    exact Traced.ret trivial
  · exact Traced.ret trivial

theorem reconcile_goes :
    Goes sha ports s (.reconcile identity request) (reconcile sha ports identity request) s
      (fun _ _ => True) := by
  refine Traced.bind (validatedScope_goes rfl) ?_
  intro scope t₁ hscope
  refine Traced.bind (effectIntent_goes hscope) ?_
  rintro intent t₂ ⟨hintent, rfl⟩
  refine Traced.bind (startReconciliation_goes hscope) ?_
  intro currentVersion t₃ _
  refine Traced.bind (claimIntent_goes (by exact Option.some_ne_none _)) ?_
  intro claim t₄ _
  refine Traced.bind (reconciledReceipt_goes hintent) ?_
  intro receipt t₅ _
  split
  · refine Traced.bind
      (appendNow_goes (.reconciliationResolved identity request scope receipt hscope)) ?_
    intro _ _ _
    exact Traced.ret trivial
  · refine Traced.bind (appendNow_goes (.escalation identity request scope hscope)) ?_
    intro _ _ _
    exact Traced.raised _

theorem verificationRecord_goes {scope : EffectScope} {intent : ActionIntent}
    {effectReceipt : ActionReceipt} {freshEvidence : List Citation}
    (hscope : InScope sha ports s (.verify identity request effectReceipt freshEvidence) request
      scope)
    (hintent : Intended sha ports s (.verify identity request effectReceipt freshEvidence) intent) :
    Goes sha ports s (.verify identity request effectReceipt freshEvidence)
      (verificationRecord sha ports scope request intent effectReceipt freshEvidence) t
      (fun _ _ => True) := by
  refine Traced.reading ?_
  dsimp only
  split
  · exact Traced.ret trivial
  · refine Traced.bind (callAdapter_goes trivial hintent) ?_
    intro observed t₁ _
    refine Traced.bind now_goes ?_
    rintro time t₂ ⟨-, rfl⟩
    refine Traced.attempt (fun record hbuilt => ?_)
    refine Traced.bind (putVerification_goes rfl hscope hintent hbuilt) ?_
    intro _ _ _
    exact Traced.ret trivial

theorem verify_goes {effectReceipt : ActionReceipt} {freshEvidence : List Citation} :
    Goes sha ports s (.verify identity request effectReceipt freshEvidence)
      (verify sha ports identity request effectReceipt freshEvidence) s (fun _ _ => True) := by
  refine Traced.bind (validatedScope_goes rfl) ?_
  intro scope t₁ hscope
  refine Traced.bind (effectIntent_goes hscope) ?_
  rintro intent t₂ ⟨hintent, rfl⟩
  refine Traced.check (fun _ => Traced.bind (appendNow_goes
    (.verificationRequested identity request effectReceipt freshEvidence scope hscope)) ?_)
  intro requested t₃ _
  refine Traced.bind (verificationRecord_goes hscope hintent) ?_
  intro record t₄ _
  refine Traced.bind (appendNow_goes
    (.verificationResult identity request effectReceipt freshEvidence scope record hscope)) ?_
  intro _ _ _
  exact Traced.check (fun _ => Traced.ret trivial)

theorem compensationReceipt_goes {intent : ActionIntent} {claim : EffectClaimRecord}
    (hintent : Intended sha ports s (.rollback identity request) intent) :
    Goes sha ports s (.rollback identity request) (compensationReceipt sha ports intent claim) t
      (fun _ _ => True) := by
  unfold compensationReceipt
  cases claim.receipt with
  | some receipt => exact Traced.ret trivial
  | none =>
    refine Traced.bind (callAdapter_goes trivial hintent) ?_
    intro receipt t₁ _
    refine Traced.bind (completeIntent_goes (by exact Option.some_ne_none _)) ?_
    intro _ _ _
    exact Traced.ret trivial

theorem rollback_goes :
    Goes sha ports s (.rollback identity request) (rollback sha ports identity request) s
      (fun _ _ => True) := by
  refine Traced.bind (validatedScope_goes rfl) ?_
  intro scope t₁ hscope
  refine Traced.check (fun _ => Traced.bind (effectIntent_goes hscope) ?_)
  rintro intent t₂ ⟨hintent, rfl⟩
  refine Traced.bind (appendNow_goes (.rollbackRequested identity request scope hscope)) ?_
  intro requested t₃ _
  refine Traced.bind (claimIntent_goes (by exact Option.some_ne_none _)) ?_
  intro claim t₄ _
  refine Traced.bind (compensationReceipt_goes hintent) ?_
  intro receipt t₅ _
  refine Traced.bind (appendNow_goes (.rollbackResult identity request scope receipt hscope)) ?_
  intro _ _ _
  exact Traced.check (fun _ => Traced.ret trivial)

end Methods

/-- **What a call may do.**  However it ends, it has gone along its events. -/
theorem step_path (sha : Sha256) (ports : Ports) (s : State) (op : Op) :
    Path Event.apply (May sha ports s op) s (step sha ports s op).2 := by
  have hbody : Goes sha ports s op (op.body sha ports) s (fun _ _ => True) := by
    cases op with
    | propose identity plan commandId => exact propose_goes.bind (fun _ _ _ => Traced.ret trivial)
    | requestApproval identity planId expectedVersion commandId =>
      exact requestApproval_goes.bind (fun _ _ _ => Traced.ret trivial)
    | decide identity request => exact decide_goes.bind (fun _ _ _ => Traced.ret trivial)
    | revoke identity approvalId expectedVersion commandId rationale =>
      exact revoke_goes.bind (fun _ _ _ => Traced.ret trivial)
    | get identity approvalId => exact getApproval_goes.bind (fun _ _ _ => Traced.ret trivial)
    | preflight identity request => exact preflight_goes.bind (fun _ _ _ => Traced.ret trivial)
    | execute identity request => exact execute_goes.bind (fun _ _ _ => Traced.ret trivial)
    | reconcile identity request => exact reconcile_goes.bind (fun _ _ _ => Traced.ret trivial)
    | verify identity request effectReceipt freshEvidence =>
      exact verify_goes.bind (fun _ _ _ => Traced.ret trivial)
    | rollback identity request => exact rollback_goes.bind (fun _ _ _ => Traced.ret trivial)
    | replacePolicy policy =>
      exact (replacePolicy_goes rfl).bind (fun _ _ _ => Traced.ret trivial)
  exact hbody.path

/-- An entry of a history begins where the calls before it lead. -/
theorem history_split {sha : Sha256} {ports : Ports} {start : State} {ops : List Op}
    {pre post : List HistoryEntry} {e : HistoryEntry}
    (h : history sha ports start ops = pre ++ e :: post) :
    ∃ xs, pre = history sha ports start xs ∧ e.before = run sha ports start xs ∧
      e = Machine.entry (step sha ports) e.before e.op := by
  obtain ⟨xs, ys, -, hpre, he, -⟩ := Machine.trace_split h
  have hbefore : e.before = run sha ports start xs := by rw [he]; rfl
  refine ⟨xs, hpre, hbefore, ?_⟩
  rw [hbefore]
  exact he

end Remediation

end Aegis
