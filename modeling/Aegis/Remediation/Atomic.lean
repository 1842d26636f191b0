/-
  THE SERVICES, CALL BY CALL.

  `Services` runs a method from one state to another.  Here the same methods are programs in steps: one
  step per call of a store, of the clock, of a port or of the adapter, each under its own lock, and
  nothing in between.  So two methods may interleave, and a method may stop after any call.

  Run undisturbed, each program IS the method (`exec_propose` ... `exec_rollback`).
-/
import Mathlib
import Aegis.Lib.Concurrent
import Aegis.Remediation.Services

namespace Aegis

namespace Remediation

namespace Atomic

open Steps (atom)

/-- The calls a method makes, with what a law about them needs of their arguments. -/
inductive PortCall where
  | authorize (action : PolicyAction)
  | clock
  | read
  | putPlan (plan : RemediationPlan)
  | putApproval (approval : ActionApprovalRequest)
  | addDecision (decision : ApprovalDecision)
  | append (key : String × String) (expectedVersion : Int) (factType : RemediationFactType)
      (commandId : String) (payload : Fields)
  | replacePolicy (policy : ActionPolicy)
  | reserve (tenantId : String) (reservationId : Identifier)
  | claim (intent : ActionIntent) (workerRef : Identifier) (now claimUntil : Datetime)
  | complete (receipt : ActionReceipt) (claimToken : Identifier)
  | adapter (call : AdapterCall)

abbrev Program (α : Type) : Type := Steps PortCall Error State α

/-! ## The calls -/

/-- A look at a store. -/
def look {α : Type} (f : State → α) : Program α := atom .read (Exec.read >>= fun s => pure (f s))

def clockNow (ports : Ports) : Program Datetime := atom .clock (now ports)

def authorized (ports : Ports) (identity : IdentityContext) (action : PolicyAction)
    (risk : RiskLevel) : Program Unit := atom (.authorize action) (authorize ports identity action risk)

/-- `append`, once its time is known. -/
def appendAt (sha : Sha256) (key : String × String) (expectedVersion : Int)
    (factType : RemediationFactType) (commandId : String) (actor : Identifier) (time : Datetime)
    (payload : Fields) : Program RemediationProjection :=
  atom (.append key expectedVersion factType commandId payload)
    (append sha key.1 key.2 expectedVersion factType commandId actor.val time payload)

def adapt {α : Type} (call : AdapterCall) (answer : Nat → Except Error α) : Program α :=
  atom (.adapter call) (callAdapter call answer)

def requireActionPolicy (ports : Ports) (plan : RemediationPlan) (consumeQuota : Bool) :
    Program ActionPolicy := do
  let current ← look fun s => s.policies plan.tenantId.val
  let time ← clockNow ports
  match current with
  | none => Steps.raise ⟨.policyDenied, "no_current_action_policy"⟩
  | some policy =>
    match refusal policy plan consumeQuota time with
    | some reason => Steps.raise ⟨.policyDenied, reason⟩
    | none => pure policy

/-! ## Approvals -/

/-! ## Effects -/

/-- The records of a scope, store by store. -/
def scopeRecords (identity : IdentityContext) (planId actionId : String) : Program EffectScope := do
  let plan ← look fun s => s.plans (identity.tenantId.val, planId)
  let projection ← look fun s => s.projections (identity.tenantId.val, planId)
  match plan, projection with
  | some plan, some projection =>
    match projection.approvalId with
    | none => Steps.raise notAvailable
    | some approvalId => do
      Steps.require (∃ action ∈ plan.actions, action.actionId.val = actionId)
        ⟨.policyDenied, "action_not_in_exact_plan"⟩
      match ← look fun s => s.approvals (identity.tenantId.val, approvalId) with
      | none => Steps.raise ⟨.integrityFailure, "approved remediation omitted approval record"⟩
      | some approval =>
        match ← look fun s => s.policies identity.tenantId.val with
        | none => Steps.raise ⟨.policyDenied, "no_current_action_policy"⟩
        | some policy => pure { plan, approval, policy, projection }
  | _, _ => Steps.raise notAvailable

def checkScope (sha : Sha256) (ports : Ports) (identity : IdentityContext) (scope : EffectScope)
    (allowedStatuses : List RemediationStatus) : Program Unit := do
  Steps.require (scope.approval.planDigest = scope.plan.digest sha
      ∧ some (scope.approval.digest sha).val = scope.projection.approvalDigest
      ∧ scope.approval.policySnapshot = scope.policy.snapshot sha
      ∧ scope.plan.policySnapshot = scope.policy.snapshot sha) staleScope
  let time ← clockNow ports
  Steps.require (time < scope.approval.expiresAt) staleScope
  let time' ← clockNow ports
  Steps.require (time' < scope.plan.expiresAt) staleScope
  let decisions ← look fun s => s.decisions (identity.tenantId.val, scope.approval.approvalId.val)
  Steps.require (∀ item ∈ decisions, item.disposition ≠ .deny)
    ⟨.approvalDenied, "approval was denied"⟩
  Steps.require (scope.approval.requirement.quorum
      ≤ (approvers (exactDecision sha scope) decisions).length)
    ⟨.approvalDenied, "approval quorum is not satisfied"⟩
  Steps.require (scope.projection.status ∈ allowedStatuses)
    (if scope.projection.status = .revoked then ⟨.approvalRevoked, "approval was revoked"⟩
     else ⟨.effectConflict, "remediation state does not permit this operation"⟩)

/-- `_validated_scope`. -/
def validatedScope (sha : Sha256) (ports : Ports) (identity : IdentityContext)
    (planId actionId : String) (allowedStatuses : List RemediationStatus) :
    Program EffectScope := do
  authorized ports identity .effectExecute .high
  let scope ← scopeRecords identity planId actionId
  checkScope sha ports identity scope allowedStatuses
  let _ ← requireActionPolicy ports scope.plan true
  let _ ← clockNow ports
  let quota ← atom (.reserve scope.plan.tenantId.val (reservationOf sha scope.plan actionId))
    (reserveQuota scope.plan.tenantId.val (reservationOf sha scope.plan actionId) 1)
  Steps.require (quota.allowed = true) ⟨.policyDenied, quota.reason⟩
  pure scope

def effectIntent (sha : Sha256) (ports : Ports) (scope : EffectScope) (request : EffectRequest)
    (dryRun : Bool) : Program ActionIntent := do
  let time ← clockNow ports
  Steps.done (buildIntent sha scope request dryRun time)

def appendNow (sha : Sha256) (ports : Ports) (plan : RemediationPlan) (expectedVersion : Int)
    (factType : RemediationFactType) (commandId : String) (actor : Identifier) (payload : Fields) :
    Program RemediationProjection := do
  let time ← clockNow ports
  appendAt sha (plan.tenantId.val, plan.planId.val) expectedVersion factType commandId actor time
    payload

def claimIntent (sha : Sha256) (ports : Ports) (intent : ActionIntent) (actor : Identifier) :
    Program EffectClaimRecord := do
  let time ← clockNow ports
  atom (.claim intent actor time (time.addSeconds intent.action.retry.attemptTimeoutSeconds))
    (claimEffect sha intent actor.val time
      (time.addSeconds intent.action.retry.attemptTimeoutSeconds))

def completeIntent (sha : Sha256) (ports : Ports) (claim : EffectClaimRecord)
    (receipt : ActionReceipt) : Program Unit := do
  let _ ← clockNow ports
  atom (.complete receipt claim.claimToken) (completeEffect sha receipt claim.claimToken)

def ownReceipt (ports : Ports) (intent : ActionIntent) (outcome : EffectOutcome)
    (detailCode : Identifier) (providerReceiptRef : Option Identifier) : Program ActionReceipt := do
  let time ← clockNow ports
  pure (syntheticReceipt intent outcome detailCode time providerReceiptRef)

def attemptEffect (ports : Ports) (intent : ActionIntent) : Program ActionReceipt := do
  let before ← adapt (.observe intent) fun n => ports.observe n intent
  if before.state = .applied then
    ownReceipt ports intent .duplicate (literalIdentifier "already_applied")
      before.providerReceiptRef
  else if before.state ≠ .before ∧ before.state ≠ .notApplied then
    ownReceipt ports intent .conflict (literalIdentifier "observe_before_execute_conflict") none
  else if ¬∀ condition ∈ intent.action.preconditions,
      conditionMatches condition before.facts = true then
    ownReceipt ports intent .conflict (literalIdentifier "precondition_failed") none
  else adapt (.execute intent) fun n => ports.execute n intent

def executionReceipt (sha : Sha256) (ports : Ports) (scope : EffectScope) (request : EffectRequest)
    (actor : Identifier) (intent : ActionIntent) (claim : EffectClaimRecord)
    (requested : RemediationProjection) : Program (ActionReceipt × Nat) :=
  match claim.receipt with
  | some receipt => pure (receipt, requested.version)
  | none => do
    let started ← appendNow sha ports scope.plan requested.version .executionStarted
      (request.operationId ++ ":started:" ++ request.attempt.repr) actor
      (Fields.of [("attempt", .int request.attempt)])
    let receipt ← attemptEffect ports intent
    completeIntent sha ports claim receipt
    pure (receipt, started.version)

/-- The end of `execute`: the outcome is recorded. -/
def recordExecution (sha : Sha256) (ports : Ports) (scope : EffectScope) (request : EffectRequest)
    (actor : Identifier) (receipt : ActionReceipt) (resultVersion : Nat) :
    Program ActionReceipt :=
  match executionFact receipt.outcome with
  | none => Steps.raise ⟨.integrityFailure, "action adapter returned an invalid execute outcome"⟩
  | some factType => do
    let _ ← appendNow sha ports scope.plan resultVersion factType
      (request.operationId ++ ":result") actor
      (Fields.of [("effect_receipt_digest", .str (receipt.digest sha).val),
        ("detail_code", .str receipt.detailCode.val)])
    Steps.require (receipt.outcome ≠ .ambiguous)
      ⟨.effectAmbiguous, "external action outcome requires reconciliation"⟩
    Steps.require (receipt.outcome = .succeeded ∨ receipt.outcome = .duplicate)
      ⟨.effectConflict, "external action failed safely"⟩
    pure receipt

/-- `execute`, once its scope is validated. -/
def executeScoped (sha : Sha256) (ports : Ports) (identity : IdentityContext)
    (request : EffectRequest) (scope : EffectScope) : Program ActionReceipt := do
  let intent ← effectIntent sha ports scope request false
  let requested ← appendNow sha ports scope.plan request.expectedVersion .executionRequested
    (request.operationId ++ ":intent") (actorRef sha identity)
    (Fields.of [("action_id", .str request.actionId),
      ("idempotency_key", .str intent.action.idempotencyKey.val),
      ("fence_token", .str scope.projection.fenceToken.val)])
  let claim ← claimIntent sha ports intent (actorRef sha identity)
  let (receipt, resultVersion) ← executionReceipt sha ports scope request (actorRef sha identity)
    intent claim requested
  recordExecution sha ports scope request (actorRef sha identity) receipt resultVersion

/-- `execute`. -/
def execute (sha : Sha256) (ports : Ports) (identity : IdentityContext) (request : EffectRequest) :
    Program ActionReceipt := do
  let scope ← validatedScope sha ports identity request.planId request.actionId
    [.preflight, .executing, .succeeded]
  executeScoped sha ports identity request scope

def compensationReceipt (sha : Sha256) (ports : Ports) (intent : ActionIntent)
    (claim : EffectClaimRecord) : Program ActionReceipt :=
  match claim.receipt with
  | some receipt => pure receipt
  | none => do
    let receipt ← adapt (.compensate intent) fun n => ports.compensate n intent
    completeIntent sha ports claim receipt
    pure receipt

/-- The end of `rollback`: the outcome is recorded. -/
def recordRollback (sha : Sha256) (ports : Ports) (scope : EffectScope) (request : EffectRequest)
    (actor : Identifier) (receipt : ActionReceipt) (requestedVersion : Nat) :
    Program ActionReceipt := do
  let _ ← appendNow sha ports scope.plan requestedVersion
    (if receipt.outcome = .compensated then .rollbackSucceeded else .rollbackFailed)
    (request.operationId ++ ":result") actor
    (Fields.of [("effect_receipt_digest", .str (receipt.digest sha).val),
      ("detail_code", .str receipt.detailCode.val)])
  Steps.require (receipt.outcome = .compensated)
    ⟨.effectConflict, "rollback failed and requires operator escalation"⟩
  pure receipt

/-- `rollback`, once its scope is validated. -/
def rollbackScoped (sha : Sha256) (ports : Ports) (identity : IdentityContext)
    (request : EffectRequest) (scope : EffectScope) : Program ActionReceipt := do
  Steps.require (∀ action ∈ scope.plan.actions, action.actionId.val = request.actionId →
      action.compensation.enabled = true) ⟨.policyDenied, "compensation_not_enabled"⟩
  let intent ← effectIntent sha ports scope request false
  let requested ← appendNow sha ports scope.plan request.expectedVersion .rollbackRequested
    (request.operationId ++ ":intent") (actorRef sha identity)
    (Fields.of [("action_id", .str request.actionId)])
  let claim ← claimIntent sha ports intent (actorRef sha identity)
  let receipt ← compensationReceipt sha ports intent claim
  recordRollback sha ports scope request (actorRef sha identity) receipt requested.version

/-- `rollback`. -/
def rollback (sha : Sha256) (ports : Ports) (identity : IdentityContext) (request : EffectRequest) :
    Program ActionReceipt := do
  let scope ← validatedScope sha ports identity request.planId request.actionId
    [.failed, .succeeded, .verificationFailed, .rolledBack]
  rollbackScoped sha ports identity request scope

/-! ## Run undisturbed -/

section Undisturbed

open Steps (exec_seq)

variable {sha : Sha256} {ports : Ports} {identity : IdentityContext} {s : State}

theorem exec_require_at {c : Prop} [Decidable c] {e : Error} :
    (Steps.require c e : Program Unit).exec s = Exec.require c e s := by
  rw [Steps.exec_require]

theorem read_at {α : Type} (g : State → Action α) : (Exec.read >>= g) s = g s s := rfl

theorem look_at {α β : Type} (f : State → α) (k : α → Program β) :
    (look f >>= k).exec s = (k (f s)).exec s := rfl

theorem exec_requireActionPolicy (plan : RemediationPlan) (consumeQuota : Bool) :
    (requireActionPolicy ports plan consumeQuota).exec s =
      Remediation.requireActionPolicy ports plan consumeQuota s := by
  unfold requireActionPolicy Remediation.requireActionPolicy
  rw [look_at, read_at]
  refine exec_seq rfl fun time s' => ?_
  cases s.policies plan.tenantId.val with
  | none => rfl
  | some policy =>
    dsimp only
    cases refusal policy plan consumeQuota time <;> rfl

theorem exec_scopeRecords (planId actionId : String) :
    (scopeRecords identity planId actionId).exec s =
      Remediation.scopeRecords identity planId actionId s := by
  unfold scopeRecords Remediation.scopeRecords
  rw [look_at, look_at, read_at]
  cases s.plans (identity.tenantId.val, planId) with
  | none => rfl
  | some plan =>
    cases s.projections (identity.tenantId.val, planId) with
    | none => rfl
    | some projection =>
      dsimp only
      cases projection.approvalId with
      | none => rfl
      | some approvalId =>
        dsimp only
        by_cases haction : ∃ action ∈ plan.actions, action.actionId.val = actionId
        · rw [Steps.require_pos haction, Exec.require_pos haction]
          show (look _ >>= fun approval => _ : Program _).exec s = _
          rw [look_at]
          cases s.approvals (identity.tenantId.val, approvalId) with
          | none => rfl
          | some approval =>
            dsimp only
            rw [look_at]
            cases s.policies identity.tenantId.val <;> rfl
        · rw [Steps.require_neg haction, Exec.require_neg haction]
          rfl

theorem exec_checkScope (scope : EffectScope) (statuses : List RemediationStatus) :
    (checkScope sha ports identity scope statuses).exec s =
      Remediation.checkScope sha ports identity scope statuses s := by
  refine exec_seq exec_require_at fun _ s₁ => exec_seq rfl fun time s₂ => ?_
  refine exec_seq exec_require_at fun _ s₃ => exec_seq rfl fun time' s₄ => ?_
  refine exec_seq exec_require_at fun _ s₅ => ?_
  rw [look_at, read_at]
  refine exec_seq exec_require_at fun _ s₆ => exec_seq exec_require_at fun _ s₇ => ?_
  exact exec_require_at

theorem exec_validatedScope (planId actionId : String) (statuses : List RemediationStatus) :
    (validatedScope sha ports identity planId actionId statuses).exec s =
      Remediation.validatedScope sha ports identity planId actionId statuses s := by
  refine exec_seq rfl fun _ s₁ => exec_seq (exec_scopeRecords planId actionId) fun scope s₂ => ?_
  refine exec_seq (exec_checkScope scope statuses) fun _ s₃ => ?_
  refine exec_seq (exec_requireActionPolicy scope.plan true) fun _ s₄ => ?_
  exact exec_seq rfl fun _ s₅ => exec_seq rfl fun quota s₆ => exec_seq exec_require_at fun _ _ => rfl

theorem exec_ownReceipt (intent : ActionIntent) (outcome : EffectOutcome) (detailCode : Identifier)
    (providerReceiptRef : Option Identifier) :
    (ownReceipt ports intent outcome detailCode providerReceiptRef).exec s =
      Remediation.ownReceipt ports intent outcome detailCode providerReceiptRef s :=
  exec_seq rfl fun _ _ => rfl

theorem exec_attemptEffect (intent : ActionIntent) :
    (attemptEffect ports intent).exec s = Remediation.attemptEffect ports intent s := by
  refine exec_seq rfl fun before s₁ => ?_
  split
  · exact exec_ownReceipt _ _ _ _
  · split
    · exact exec_ownReceipt _ _ _ _
    · split
      · exact exec_ownReceipt _ _ _ _
      · rfl

theorem exec_appendNow (plan : RemediationPlan) (expectedVersion : Int)
    (factType : RemediationFactType) (commandId : String) (actor : Identifier) (payload : Fields) :
    (appendNow sha ports plan expectedVersion factType commandId actor payload).exec s =
      Remediation.appendNow sha ports plan expectedVersion factType commandId actor payload s :=
  exec_seq rfl fun _ _ => rfl

theorem exec_completeIntent (claim : EffectClaimRecord) (receipt : ActionReceipt) :
    (completeIntent sha ports claim receipt).exec s =
      Remediation.completeIntent sha ports claim receipt s :=
  exec_seq rfl fun _ _ => rfl

theorem exec_executionReceipt (scope : EffectScope) (request : EffectRequest) (actor : Identifier)
    (intent : ActionIntent) (claim : EffectClaimRecord) (requested : RemediationProjection) :
    (executionReceipt sha ports scope request actor intent claim requested).exec s =
      Remediation.executionReceipt sha ports scope request actor intent claim requested s := by
  unfold executionReceipt Remediation.executionReceipt
  cases claim.receipt with
  | some receipt => rfl
  | none =>
    refine exec_seq (exec_appendNow _ _ _ _ _ _) fun started s₁ => ?_
    refine exec_seq (exec_attemptEffect intent) fun receipt s₂ => ?_
    exact exec_seq (exec_completeIntent claim receipt) fun _ _ => rfl

theorem exec_execute (request : EffectRequest) :
    (execute sha ports identity request).exec s = executeAction sha ports identity request s := by
  refine exec_seq (exec_validatedScope _ _ _) fun scope s₁ => ?_
  refine exec_seq (exec_seq rfl fun _ _ => rfl) fun intent s₂ => ?_
  refine exec_seq (exec_appendNow _ _ _ _ _ _) fun requested s₃ => ?_
  refine exec_seq (exec_seq rfl fun _ _ => rfl) fun claim s₄ => ?_
  refine exec_seq (exec_executionReceipt _ _ _ _ _ _) ?_
  rintro ⟨receipt, resultVersion⟩ s₅
  unfold recordExecution
  dsimp only
  cases executionFact receipt.outcome with
  | none => rfl
  | some factType =>
    refine exec_seq (exec_appendNow _ _ _ _ _ _) fun _ s₆ => ?_
    exact exec_seq exec_require_at fun _ s₇ => exec_seq exec_require_at fun _ _ => rfl

theorem exec_compensationReceipt (intent : ActionIntent) (claim : EffectClaimRecord) :
    (compensationReceipt sha ports intent claim).exec s =
      Remediation.compensationReceipt sha ports intent claim s := by
  unfold compensationReceipt Remediation.compensationReceipt
  cases claim.receipt with
  | some receipt => rfl
  | none =>
    exact exec_seq rfl fun receipt s₁ => exec_seq (exec_completeIntent claim receipt) fun _ _ => rfl

theorem exec_rollback (request : EffectRequest) :
    (rollback sha ports identity request).exec s =
      Remediation.rollback sha ports identity request s := by
  refine exec_seq (exec_validatedScope _ _ _) fun scope s₁ => ?_
  refine exec_seq exec_require_at fun _ s₂ => ?_
  refine exec_seq (exec_seq rfl fun _ _ => rfl) fun intent s₃ => ?_
  refine exec_seq (exec_appendNow _ _ _ _ _ _) fun requested s₄ => ?_
  refine exec_seq (exec_seq rfl fun _ _ => rfl) fun claim s₅ => ?_
  refine exec_seq (exec_compensationReceipt intent claim) fun receipt s₆ => ?_
  exact exec_seq (exec_appendNow _ _ _ _ _ _) fun _ s₇ => exec_seq exec_require_at fun _ _ => rfl

end Undisturbed

end Atomic

end Remediation

end Aegis
