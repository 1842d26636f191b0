/-
  QUOTA AND EXECUTIONS: the control service, call by call.

  A request is authorized, reserves one unit of the tenant's quota, and records three facts.  The unit is
  reserved under the IDEMPOTENCY KEY, the facts under the EXECUTION, and the ledger knows repeats by the
  COMMAND.  A reservation that exists is returned to whoever asks for its key.

  So the executions of a tenant are bounded by its quota as long as one key means one execution: no step
  records a request of an execution that has none under a key another execution was recorded under
  (`KeyedOnce`).  Then every execution has a reservation of its own (`executions_within_quota`).  Without
  it two executions share one unit (`quota_exceeded`).
-/
import Mathlib
import Aegis.Lib.Concurrent
import Aegis.Sandbox.Ledger

namespace Aegis

namespace Sandbox

open Steps (atom)
open Threads

/-! ## The policy -/

/-- `[a-z0-9]`. -/
def lowerAlnum (c : Char) : Bool := c.isDigit || (decide ('a' ≤ c) && decide (c ≤ 'z'))

/-- `[a-z0-9](?:[a-z0-9.-]*[a-z0-9])?`. -/
def hostName (cs : List Char) : Bool :=
  cs.all (fun c => lowerAlnum c || c == '.' || c == '-') && cs.head?.any lowerAlnum &&
    cs.getLast?.any lowerAlnum

/-- The group `registry`: a host, and perhaps a port. -/
def registryName (cs : List Char) : Bool :=
  match cs.splitOn ':' with
  | [host] => hostName host
  | [host, port] =>
    hostName host && decide (1 ≤ port.length) && decide (port.length ≤ 5) && port.all Char.isDigit
  | _ => false

/-- Parts of `[a-z0-9]+`, joined by single points, underscores, slashes or hyphens. -/
def repositoryName (cs : List Char) : Bool :=
  (cs.splitOnP fun c => c == '.' || c == '_' || c == '/' || c == '-').all fun part =>
    !part.isEmpty && part.all lowerAlnum

/-- `_OCI_IMAGE.fullmatch(image)`: the registry, and the digest after `@sha256:`. -/
def imageParts (image : String) : Option (String × String) :=
  match image.toList.splitOn '@' with
  | [name, digest] =>
    -- a registry has no slash, so it ends before the first one
    let registry := name.takeWhile (· != '/')
    let rest := name.dropWhile (· != '/')
    let hex := digest.drop 7
    if registryName registry && rest.head? == some '/' && repositoryName (rest.drop 1) &&
        digest.take 7 == "sha256:".toList && decide (hex.length = 64) && hex.all hexChar then
      some (String.ofList registry, String.ofList hex)
    else none
  | _ => none

/-- `SandboxPolicy`. -/
structure SandboxPolicy where
  tenantId : Identifier
  policyId : Identifier
  revision : Nat
  enabled : Bool
  allowedImageDigests : List Digest
  allowedRegistries : List String
  allowedCommands : List String
  allowedPurposes : List SandboxPurpose
  allowedMountPrefixes : List String
  allowedSecretRefs : List Identifier
  allowedEgress : List EgressDestination
  allowedApprovalPolicyDigests : List Digest
  maximumResources : SandboxResources
  maximumConcurrency : Nat
  maximumLifetimeSeconds : Nat
  maximumRisk : RiskLevel
  requireRuntimeClass : Identifier
  requireAdmissionPolicies : List Identifier
  policyDigest : Digest

/-- `raise PolicyDenied(message)` unless `c`. -/
def allow (c : Prop) [Decidable c] (message : String) : Except Error Unit :=
  if c then .ok () else .error ⟨.policyDenied, message⟩

/-- The risks up to a maximum. -/
def risksUpTo (maximum : RiskLevel) : List RiskLevel :=
  [.low] ++ (if maximum = .medium ∨ maximum = .high then [.medium] else []) ++
    (if maximum = .high then [.high] else [])

/-- The lists of the policy name what the spec asks for. -/
def SandboxPolicy.Lists (p : SandboxPolicy) (spec : SandboxSpec) (registry digest : String) : Prop :=
  digest ∈ p.allowedImageDigests.map (·.val) ∧ registry ∈ p.allowedRegistries ∧
    spec.argv.head spec.argv_ok ∈ p.allowedCommands ∧ spec.purpose ∈ p.allowedPurposes ∧
    spec.approval.approvalPolicyDigest ∈ p.allowedApprovalPolicyDigests ∧
    spec.requiredRuntimeClass = p.requireRuntimeClass ∧
    spec.requiredAdmissionPolicies = p.requireAdmissionPolicies ∧ spec.risk ∈ risksUpTo p.maximumRisk

instance (p : SandboxPolicy) (spec : SandboxSpec) (registry digest : String) :
    Decidable (p.Lists spec registry digest) :=
  inferInstanceAs (Decidable (_ ∧ _ ∧ _ ∧ _ ∧ _ ∧ _ ∧ _ ∧ _))

/-- No resource exceeds its ceiling. -/
def SandboxResources.Within (requested ceilings : SandboxResources) : Prop :=
  requested.cpuMillicores ≤ ceilings.cpuMillicores ∧ requested.memoryMib ≤ ceilings.memoryMib ∧
    requested.pidLimit ≤ ceilings.pidLimit ∧
    requested.ephemeralStorageMib ≤ ceilings.ephemeralStorageMib ∧
    requested.timeoutSeconds ≤ ceilings.timeoutSeconds ∧
    requested.outputBytes ≤ ceilings.outputBytes ∧ requested.outputFiles ≤ ceilings.outputFiles ∧
    requested.outputFileBytes ≤ ceilings.outputFileBytes

instance (requested ceilings : SandboxResources) : Decidable (requested.Within ceilings) :=
  inferInstanceAs (Decidable (_ ∧ _ ∧ _ ∧ _ ∧ _ ∧ _ ∧ _ ∧ _))

/-- A mount is at an allowed prefix or below one. -/
def mountAllowed (prefixes : List String) (m : MountReference) : Bool :=
  prefixes.any fun p => m.targetPath == p || (p ++ "/").toList.isPrefixOf m.targetPath.toList

/-- `SandboxPolicy.authorize`. -/
def SandboxPolicy.authorize (p : SandboxPolicy) (spec : SandboxSpec) (activeExecutions : Int)
    (now : Datetime) : Except Error Unit := do
  allow (p.enabled = true ∧ p.tenantId = spec.tenantId)
    "sandbox policy is disabled or tenant-mismatched"
  match imageParts spec.image with
  | none => .error ⟨.policyDenied, "sandbox image is not immutable"⟩
  | some (registry, digest) => do
    allow (p.Lists spec registry digest) "sandbox request is not allowlisted"
    allow (now < spec.approval.approvalExpiresAt) "sandbox approval expired"
    allow (activeExecutions < p.maximumConcurrency) "sandbox concurrency quota exhausted"
    allow (spec.resources.timeoutSeconds ≤ p.maximumLifetimeSeconds) "sandbox lifetime exceeds policy"
    allow (spec.resources.Within p.maximumResources) "sandbox resource request exceeds policy"
    allow (spec.mounts.all (mountAllowed p.allowedMountPrefixes) = true)
      "sandbox mount is not allowlisted"
    allow (∀ s ∈ spec.secrets, s.reference ∈ p.allowedSecretRefs)
      "sandbox secret reference is not allowlisted"
    allow (spec.network.mode = .exactDestinations →
        ∀ d ∈ spec.network.destinations, d ∈ p.allowedEgress)
      "sandbox egress destination is not allowlisted"

/-! ## The service -/

structure SandboxQuotaDecision where
  allowed : Bool
  reservationId : Identifier
  units : Int
  reason : String

/-- The ledger, and what is left and reserved of the quota. -/
structure ControlState where
  ledger : LedgerState
  remaining : String → Int
  reservations : String × String → Option SandboxQuotaDecision
  tick : Nat

/-- A new ledger, and `InMemorySandboxQuota(limits)`. -/
def ControlState.start (limits : String → Int) : ControlState :=
  ⟨.empty, limits, fun _ => none, 0⟩

/-- The clock, the application policy and the approvals, asked with the number of the question; Python's
    text of an array or an object. -/
structure ControlPorts where
  clock : Nat → Datetime
  authorize : Nat → IdentityContext → RiskLevel → Bool
  currentApproval : Nat → String → String → Option SandboxApprovalBinding
  reprOf : Json → String

/-- What the service calls. -/
inductive PortCall where
  | authorize
  | approval
  | clock
  | reserve (tenantId reservationId : Identifier)
  | append (call : AppendCall)

abbrev Program (α : Type) : Type := Steps PortCall Error ControlState α

/-- A port is asked. -/
def ask {α : Type} (label : PortCall) (answer : Nat → α) : Program α :=
  atom label do
    let s ← Exec.read
    Exec.modify fun s => { s with tick := s.tick + 1 }
    pure (answer s.tick)

/-- `InMemorySandboxQuota.reserve`. -/
def reserve (tenantId reservationId : Identifier) (units : Int) :
    Exec Error ControlState SandboxQuotaDecision := do
  Exec.require (1 ≤ units) ⟨.valueError, "sandbox quota units must be positive"⟩
  let s ← Exec.read
  match s.reservations (tenantId.val, reservationId.val) with
  | some existing => pure existing
  | none => do
    let allowed := decide (units ≤ s.remaining tenantId.val)
    let decision : SandboxQuotaDecision :=
      { allowed, reservationId, units,
        reason := if allowed then "reserved" else "sandbox_quota_exhausted" }
    Exec.modify fun s =>
      { s with
        reservations :=
          Function.update s.reservations (tenantId.val, reservationId.val) (some decision)
        remaining :=
          if allowed then
            Function.update s.remaining tenantId.val (s.remaining tenantId.val - units)
          else s.remaining }
    pure decision

def appendFact (sha : Sha256) (ports : ControlPorts) (c : AppendCall) :
    Program SandboxProjection :=
  atom (.append c) fun s =>
    ((append sha ports.reprOf c s.ledger).1,
      { s with ledger := (append sha ports.reprOf c s.ledger).2 })

/-- A call of `request`. -/
structure RequestCall where
  identity : IdentityContext
  request : SandboxExecutionRequest
  activeExecutions : Int
  commandId : String

/-- The identifier of the reservation of a key. -/
def reservationOf (sha : Sha256) (request : SandboxExecutionRequest) : Identifier :=
  stableIdentifier sha "sandbox-quota" [request.tenantId.val, request.idempotencyKey.val] 40

/-- A fact of a call. -/
def RequestCall.fact (sha : Sha256) (c : RequestCall) (expectedVersion : Int)
    (factType : SandboxFactType) (suffix : String) (time : Datetime)
    (payload : List (String × Json)) : AppendCall where
  tenantId := c.request.tenantId.val
  executionId := c.request.executionId.val
  expectedVersion
  factType
  commandId := c.commandId ++ suffix
  actorRef := (actorRef sha c.identity).val
  recordedAt := time
  payload := Fields.of payload

/-- The bindings are equal; times are compared as instants. -/
def SandboxApprovalBinding.Agrees (a b : SandboxApprovalBinding) : Prop :=
  a.approvalExpiresAt.instant = b.approvalExpiresAt.instant ∧
    { a with approvalExpiresAt := b.approvalExpiresAt } = b

instance (a b : SandboxApprovalBinding) : Decidable (a.Agrees b) :=
  inferInstanceAs (Decidable (_ ∧ _))

/-- `SandboxControlService.request`. -/
def request (sha : Sha256) (ports : ControlPorts) (policy : SandboxPolicy) (c : RequestCall) :
    Program SandboxProjection := do
  let r := c.request
  Steps.require (c.identity.tenantId = r.tenantId) ⟨.policyDenied, "sandbox tenant mismatch"⟩
  let allowed ← ask .authorize fun n => ports.authorize n c.identity r.spec.risk
  Steps.require (allowed = true) ⟨.policyDenied, "sandbox application authorization denied"⟩
  Steps.require (r.policyDigest = policy.policyDigest)
    ⟨.policyDenied, "sandbox policy changed after request creation"⟩
  let current ← ask .approval fun n =>
    ports.currentApproval n r.tenantId.val r.spec.approval.approvalId.val
  Steps.require (∃ a ∈ current, a.Agrees r.spec.approval)
    ⟨.policyDenied, "sandbox approval binding changed"⟩
  let now ← ask .clock ports.clock
  Steps.done (policy.authorize r.spec c.activeExecutions now)
  let _requestedAt ← ask .clock ports.clock
  let reservation ← atom (.reserve r.tenantId (reservationOf sha r))
    (reserve r.tenantId (reservationOf sha r) 1)
  Steps.require (reservation.allowed = true) ⟨.policyDenied, "sandbox execution quota exhausted"⟩
  let time ← ask .clock ports.clock
  let requested ← appendFact sha ports (c.fact sha 0 .requestRecorded "" time
    [("run_id", .str r.runId.val), ("task_id", .str r.taskId.val),
      ("request_digest", .str (r.requestDigest sha).val),
      ("spec_digest", .str (r.spec.specDigest sha).val), ("policy_digest", .str r.policyDigest.val),
      ("approval_digest", .str r.approvalDigest.val), ("fence_token", .str r.fenceToken.val)])
  let time' ← ask .clock ports.clock
  let decided ← appendFact sha ports (c.fact sha requested.version .policyDecided "-policy" time'
    [("policy_id", .str policy.policyId.val), ("policy_revision", .int policy.revision),
      ("policy_digest", .str policy.policyDigest.val)])
  let time'' ← ask .clock ports.clock
  appendFact sha ports (c.fact sha decided.version .approvalBound "-approval" time''
    [("approval_id", .str r.spec.approval.approvalId.val),
      ("approval_digest", .str r.approvalDigest.val),
      ("remediation_plan_digest", .str r.spec.approval.remediationPlanDigest.val),
      ("remediation_action_digest", .str r.spec.approval.remediationActionDigest.val)])

/-! ## The system -/

abbrev ControlPool := Pool RequestCall PortCall Error ControlState SandboxProjection

abbrev ControlEvent := Threads.Event RequestCall PortCall ControlState

/-- The pool after an interleaving of calls that begins with a new ledger and a new quota. -/
def requesting (sha : Sha256) (ports : ControlPorts) (policy : SandboxPolicy) (limits : String → Int)
    (moves : List (Move RequestCall)) : ControlPool :=
  (Pool.start (.start limits)).run (request sha ports policy) moves

/-- The steps of an interleaving. -/
def requestingEvents (sha : Sha256) (ports : ControlPorts) (policy : SandboxPolicy)
    (limits : String → Int) (moves : List (Move RequestCall)) : List ControlEvent :=
  (Pool.start (.start limits)).events (request sha ports policy) moves

/-- The execution has a `REQUEST_RECORDED` fact. -/
def Requested (s : ControlState) (key : String × String) : Prop :=
  ∃ fact ∈ s.ledger.facts key, fact.factType = .requestRecorded

/-- The executions of a tenant that were requested. -/
def requestedExecutions (s : ControlState) (tenantId : String) : Set String :=
  {executionId | Requested s (tenantId, executionId)}

/-- The step asks the ledger to record a request. -/
def AsksRequest (e : ControlEvent) (a : AppendCall) : Prop :=
  e.label = .append a ∧ a.factType = .requestRecorded

/-- The step recorded the first request of an execution, for a call with this idempotency key. -/
def Records (e : ControlEvent) (tenantId idempotencyKey executionId : String) : Prop :=
  ∃ a, AsksRequest e a ∧ a.key = (tenantId, executionId) ∧
    e.call.request.idempotencyKey.val = idempotencyKey ∧
    ¬Requested e.before (tenantId, executionId) ∧ Requested e.after (tenantId, executionId)

/-- **One key, one execution**, at a step: it does not ask to record a request of an execution that has
    none when another execution of the tenant was recorded under the key of the call. -/
def KeyedOnce (earlier : List ControlEvent) (e : ControlEvent) : Prop :=
  ∀ a, AsksRequest e a → ¬Requested e.before a.key → ∀ e' ∈ earlier, ∀ executionId,
    Records e' a.tenantId e.call.request.idempotencyKey.val executionId → executionId = a.executionId

/-! ## Phases of a call -/

/-- The reservation exists and was granted. -/
def Reserved (s : ControlState) (tenantId reservationId : String) : Prop :=
  ∃ d, s.reservations (tenantId, reservationId) = some d ∧ d.allowed = true

structure Phase where
  call : RequestCall
  reserved : Bool

/-- Ledger and quota are left alone. -/
structure Idle (s s' : ControlState) : Prop where
  ledger : s'.ledger = s.ledger
  remaining : s'.remaining = s.remaining
  reservations : s'.reservations = s.reservations

/-- What `reserve` does to one unit. -/
inductive Reserves (s : ControlState) (tenantId reservationId : Identifier) :
    Except Error SandboxQuotaDecision × ControlState → Prop
  | existing (d : SandboxQuotaDecision)
    (hd : s.reservations (tenantId.val, reservationId.val) = some d) :
    Reserves s tenantId reservationId (.ok d, s)
  | granted (d : SandboxQuotaDecision)
    (hnone : s.reservations (tenantId.val, reservationId.val) = none) (hd : d.allowed = true)
    (hunit : 1 ≤ s.remaining tenantId.val) : Reserves s tenantId reservationId
      (.ok d, { s with
        reservations := Function.update s.reservations (tenantId.val, reservationId.val) (some d)
        remaining := Function.update s.remaining tenantId.val (s.remaining tenantId.val - 1) })
  | exhausted (d : SandboxQuotaDecision)
    (hnone : s.reservations (tenantId.val, reservationId.val) = none) (hd : d.allowed = false) :
    Reserves s tenantId reservationId
      (.ok d, { s with
        reservations := Function.update s.reservations (tenantId.val, reservationId.val) (some d) })

variable {sha : Sha256} {ports : ControlPorts} {policy : SandboxPolicy} {limits : String → Int}

theorem reserve_sat (s : ControlState) (tenantId reservationId : Identifier) :
    Exec.Sat (reserve tenantId reservationId 1) s
      (fun d s' => Reserves s tenantId reservationId (.ok d, s')) (fun _ _ => False) := by
  unfold reserve
  refine Exec.Sat.check (fun hno => absurd (by decide) hno) (fun _ => ?_)
  rw [Exec.sat_bind, Exec.sat_read]
  cases hd : s.reservations (tenantId.val, reservationId.val) with
  | some d => exact .existing d hd
  | none =>
    by_cases hunit : 1 ≤ s.remaining tenantId.val
    · simp only [hunit, decide_true, if_true]
      exact .granted _ hd rfl hunit
    · simp only [hunit, decide_false, Bool.false_eq_true, if_false]
      exact .exhausted _ hd rfl

/-- A reservation that was asked for is stored as it was answered. -/
theorem Reserves.stored {s s' : ControlState} {tenantId reservationId : Identifier}
    {d : SandboxQuotaDecision} (h : Reserves s tenantId reservationId (.ok d, s')) :
    s'.reservations (tenantId.val, reservationId.val) = some d := by
  cases h with
  | existing _ hd => exact hd
  | granted _ hnone hd hunit => exact Function.update_self ..
  | exhausted _ hnone hd => exact Function.update_self ..

/-- What one step of a call does, by its phase. -/
inductive Goes (sha : Sha256) (ports : ControlPorts) :
    Phase → PortCall → ControlState → ControlState → Phase → Prop
  | idle (phase : Phase) (label : PortCall) (s s' : ControlState) (h : Idle s s') :
    Goes sha ports phase label s s' phase
  | reserves (c : RequestCall) (s : ControlState) (label : PortCall)
    (out : Except Error SandboxQuotaDecision × ControlState) (reserved : Bool)
    (h : Reserves s c.request.tenantId (reservationOf sha c.request) out)
    (hreserved : reserved = true →
      Reserved out.2 c.request.tenantId.val (reservationOf sha c.request).val) :
    Goes sha ports ⟨c, false⟩ label s out.2 ⟨c, reserved⟩
  | appends (c : RequestCall) (s : ControlState) (a : AppendCall)
    (out : Except Error SandboxProjection × LedgerState)
    (htenant : a.tenantId = c.request.tenantId.val)
    (hexecution : a.executionId = c.request.executionId.val)
    (h : FactBook.Answer (factKind sha ports.reprOf) s.ledger a.key a.command a.text out) :
    Goes sha ports ⟨c, true⟩ (.append a) s { s with ledger := out.2 } ⟨c, true⟩

/-- A program in steps that go by their phases, wherever it ends. -/
abbrev Going (sha : Sha256) (ports : ControlPorts) {α : Type} (p : Program α) (phase : Phase) : Prop :=
  Follows (Goes sha ports) (fun _ _ => True) p phase

theorem going_ask {α β : Type} {label : PortCall} {answer : Nat → α} {f : α → Program β} {phase : Phase}
    (h : ∀ a, Going sha ports (f a) phase) : Going sha ports (ask label answer >>= f) phase :=
  fun s => ⟨phase, .idle phase label s _ ⟨rfl, rfl, rfl⟩, h (answer s.tick)⟩

theorem going_check {c : Prop} [Decidable c] {e : Error} {β : Type} {f : Unit → Program β} {phase : Phase}
    (h : Going sha ports (f ()) phase) : Going sha ports (Steps.require c e >>= f) phase :=
  Follows.check (fun _ => trivial) fun _ => h

theorem going_append {c : RequestCall} {a : AppendCall} (htenant : a.tenantId = c.request.tenantId.val)
    (hexecution : a.executionId = c.request.executionId.val) :
    Going sha ports (appendFact sha ports a) ⟨c, true⟩ := by
  intro s
  exact ⟨⟨c, true⟩, .appends c s a _ htenant hexecution (append_answer s.ledger a), trivial⟩

theorem going_append_bind {c : RequestCall} {a : AppendCall} {β : Type}
    {f : SandboxProjection → Program β} (htenant : a.tenantId = c.request.tenantId.val)
    (hexecution : a.executionId = c.request.executionId.val)
    (h : ∀ p, Going sha ports (f p) ⟨c, true⟩) :
    Going sha ports (appendFact sha ports a >>= f) ⟨c, true⟩ :=
  fun s => ⟨⟨c, true⟩, .appends c s a _ htenant hexecution (append_answer s.ledger a), by
    show Follows _ _ (Steps.andThen (.done (append sha ports.reprOf a s.ledger).1) f) _
    cases (append sha ports.reprOf a s.ledger).1 with
    | ok p => exact h p
    | error e => trivial⟩

/-- **The phases of a request**: it appends after a granted reservation only. -/
theorem request_goes (c : RequestCall) : Going sha ports (request sha ports policy c) ⟨c, false⟩ := by
  unfold request
  refine going_check (going_ask fun allowed => going_check (going_check (going_ask fun current => ?_)))
  refine going_check (going_ask fun now => ?_)
  refine Follows.attempt (fun _ _ => trivial) fun _ _ => going_ask fun requestedAt => ?_
  refine Follows.atom fun s => (reserve_sat s _ _).mono (fun d s' hreserves => ?_) fun _ _ h => h.elim
  -- the phase after the step is whether the unit was granted
  refine ⟨⟨c, d.allowed⟩, .reserves c s _ (.ok d, s') _ hreserves fun hallowed =>
    ⟨d, hreserves.stored, hallowed⟩, Follows.check (fun _ => trivial) fun hallowed => ?_⟩
  rw [hallowed]
  refine going_ask fun time => going_append_bind rfl rfl fun requested => ?_
  refine going_ask fun time' => going_append_bind rfl rfl fun decided => ?_
  exact going_ask fun time'' => going_append rfl rfl

/-! ## The invariant -/

/-- The granted reservations of a tenant, one by one, and what is left of its quota. -/
def QuotaOk (limits : String → Int) (s : ControlState) (tenantId : String) : Prop :=
  ∃ ids : List String, ids.Nodup ∧ (∀ id, id ∈ ids ↔ Reserved s tenantId id) ∧
    (ids.length : Int) + s.remaining tenantId = limits tenantId ∧ (ids ≠ [] → 0 ≤ s.remaining tenantId)

/-- What is known of a call by its phase. -/
def PhaseOk (sha : Sha256) (A : RequestCall → Prop) (s : ControlState) (call : RequestCall)
    (phase : Phase) : Prop :=
  A call ∧ phase.call = call ∧ (phase.reserved = true →
    Reserved s call.request.tenantId.val (reservationOf sha call.request).val)

/-- What ties the steps of a run of the calls `A` to its state. -/
structure Bounded (sha : Sha256) (limits : String → Int) (A : RequestCall → Prop)
    (h : List ControlEvent) (s : ControlState) (phases : Nat → Option (RequestCall × Phase)) :
    Prop where
  quota : ∀ tenantId, QuotaOk limits s tenantId
  phased : ∀ i call phase, phases i = some (call, phase) → PhaseOk sha A s call phase
  asked : ∀ e ∈ h, A e.call
  recorded : ∀ tenantId executionId, Requested s (tenantId, executionId) →
    ∃ e ∈ h, Records e tenantId e.call.request.idempotencyKey.val executionId
  backed : ∀ e ∈ h, ∀ tenantId key executionId, Records e tenantId key executionId →
    e.call.request.tenantId.val = tenantId ∧
      Reserved s tenantId (reservationOf sha e.call.request).val
  once : ∀ e ∈ h, ∀ e' ∈ h, ∀ tenantId key executionId executionId',
    Records e tenantId key executionId → Records e' tenantId key executionId' →
    executionId = executionId'

/-- What a step of `reserve` does to the quota. -/
theorem Reserves.quota {s : ControlState} {tenantId reservationId : Identifier}
    {out : Except Error SandboxQuotaDecision × ControlState}
    (h : Reserves s tenantId reservationId out) (hquota : ∀ tenant, QuotaOk limits s tenant) :
    ∀ tenant, QuotaOk limits out.2 tenant := by
  intro tenant
  obtain ⟨ids, hnodup, hids, hsum, hleft⟩ := hquota tenant
  -- a decision at a new key reserves that key and no other
  have hnew : ∀ (d : SandboxQuotaDecision),
      s.reservations (tenantId.val, reservationId.val) = none → ∀ id,
      (∃ d', Function.update s.reservations (tenantId.val, reservationId.val) (some d) (tenant, id) =
          some d' ∧ d'.allowed = true) ↔
        Reserved s tenant id ∨ (d.allowed = true ∧ tenant = tenantId.val ∧ id = reservationId.val) := by
    intro d hnone id
    by_cases hkey : (tenant, id) = (tenantId.val, reservationId.val)
    · obtain ⟨rfl, rfl⟩ := Prod.mk.inj hkey
      rw [Function.update_self]
      constructor
      · rintro ⟨d', hd', hallowed⟩
        rw [← Option.some.inj hd'] at hallowed
        exact .inr ⟨hallowed, rfl, rfl⟩
      · rintro (⟨d', hd', -⟩ | ⟨hallowed, -⟩)
        · rw [hnone] at hd'
          cases hd'
        · exact ⟨d, rfl, hallowed⟩
    · rw [Function.update_of_ne hkey]
      constructor
      · exact .inl
      · rintro (hold | ⟨-, htenant, hid⟩)
        · exact hold
        · exact absurd (Prod.ext htenant hid) hkey
  cases h with
  | existing _ hd => exact ⟨ids, hnodup, hids, hsum, hleft⟩
  | exhausted d hnone hd =>
    refine ⟨ids, hnodup, fun id => (hids id).trans ?_, hsum, hleft⟩
    refine Iff.trans ?_ (hnew d hnone id).symm
    rw [hd]
    simp
  | granted d hnone hd hunit =>
    by_cases htenant : tenant = tenantId.val
    · subst htenant
      have hfresh : reservationId.val ∉ ids := by
        intro hmem
        obtain ⟨d', hd', -⟩ := (hids _).mp hmem
        rw [hnone] at hd'
        cases hd'
      refine ⟨ids ++ [reservationId.val], ?_, fun id => ?_, ?_, fun _ => ?_⟩
      · exact List.nodup_append.mpr ⟨hnodup, List.nodup_singleton _, by
          rintro a ha b hb rfl
          rw [List.mem_singleton.mp hb] at ha
          exact hfresh ha⟩
      · refine Iff.trans ?_ (hnew d hnone id).symm
        rw [List.mem_append, List.mem_singleton, hids, hd]
        simp
      · show ((ids ++ [reservationId.val]).length : Int) +
          Function.update s.remaining tenantId.val (s.remaining tenantId.val - 1) tenantId.val = _
        rw [Function.update_self, List.length_append, List.length_singleton]
        omega
      · show 0 ≤ Function.update s.remaining tenantId.val (s.remaining tenantId.val - 1) tenantId.val
        rw [Function.update_self]
        omega
    · refine ⟨ids, hnodup, fun id => (hids id).trans ?_, ?_, fun hne => ?_⟩
      · refine Iff.trans ?_ (hnew d hnone id).symm
        simp [htenant]
      · show (ids.length : Int) +
          Function.update s.remaining tenantId.val (s.remaining tenantId.val - 1) tenant = _
        rw [Function.update_of_ne htenant]
        exact hsum
      · show 0 ≤ Function.update s.remaining tenantId.val (s.remaining tenantId.val - 1) tenant
        rw [Function.update_of_ne htenant]
        exact hleft hne

/-- Reservations are kept, and the ledger is left alone. -/
theorem Reserves.keeps {s : ControlState} {tenantId reservationId : Identifier}
    {out : Except Error SandboxQuotaDecision × ControlState}
    (h : Reserves s tenantId reservationId out) :
    out.2.ledger = s.ledger ∧ ∀ tenant id, Reserved s tenant id → Reserved out.2 tenant id := by
  have hupdate : ∀ (d : SandboxQuotaDecision),
      s.reservations (tenantId.val, reservationId.val) = none → ∀ tenant id, Reserved s tenant id →
      ∃ d', Function.update s.reservations (tenantId.val, reservationId.val) (some d) (tenant, id) =
        some d' ∧ d'.allowed = true := by
    rintro d hnone tenant id ⟨d', hd', hallowed⟩
    refine ⟨d', ?_, hallowed⟩
    rw [Function.update_of_ne]
    · exact hd'
    · intro hkey
      rw [hkey, hnone] at hd'
      cases hd'
  cases h with
  | existing _ hd => exact ⟨rfl, fun _ _ h => h⟩
  | granted d hnone hd hunit => exact ⟨rfl, hupdate d hnone⟩
  | exhausted d hnone hd => exact ⟨rfl, hupdate d hnone⟩

/-- An answer of the ledger makes an execution requested only by recording its request. -/
theorem requested_answer {s : ControlState} {a : AppendCall}
    {out : Except Error SandboxProjection × LedgerState}
    (h : FactBook.Answer (factKind sha ports.reprOf) s.ledger a.key a.command a.text out)
    {key : String × String} (hbefore : ¬Requested s key)
    (hafter : Requested { s with ledger := out.2 } key) :
    a.key = key ∧ a.factType = .requestRecorded := by
  obtain ⟨fact, hfact, htype⟩ := hafter
  cases h with
  | replayed p hknown hp => exact absurd ⟨fact, hfact, htype⟩ hbefore
  | refused e hother => exact absurd ⟨fact, hfact, htype⟩ hbefore
  | recorded new p hnext =>
    have hfact' : fact ∈ (s.ledger.record a.key a.command
        ((factKind sha ports.reprOf).entry a.key a.text) new p).facts key := hfact
    rw [FactBook.Book.facts_record] at hfact'
    split at hfact'
    · rename_i hkey
      subst hkey
      rcases List.mem_append.mp hfact' with hold | hnew
      · exact absurd ⟨fact, hold, htype⟩ hbefore
      · have hcontent : fingerprintText new.factType new.payload =
            fingerprintText a.factType a.payload := hnext.content
        rw [List.mem_singleton.mp hnew] at htype
        exact ⟨rfl, (fingerprintText_inj hcontent).1.symm.trans htype⟩
    · exact absurd ⟨fact, hfact', htype⟩ hbefore

variable {A : RequestCall → Prop} {h : List ControlEvent} {s s' : ControlState}
  {phases phases' : Nat → Option (RequestCall × Phase)}

/-- What other steps leave in place stays known. -/
theorem Bounded.frame (hb : Bounded sha limits A h s phases)
    (hrequested : ∀ key, Requested s' key → Requested s key)
    (hquota : ∀ tenantId, QuotaOk limits s' tenantId)
    (hgrows : ∀ tenantId id, Reserved s tenantId id → Reserved s' tenantId id)
    (hphases : ∀ i call phase, phases' i = some (call, phase) → PhaseOk sha A s' call phase) :
    Bounded sha limits A h s' phases' where
  quota := hquota
  phased := hphases
  asked := hb.asked
  recorded := fun tenantId executionId h => hb.recorded tenantId executionId (hrequested _ h)
  backed := fun e he _ _ _ hrecords =>
    ⟨(hb.backed e he _ _ _ hrecords).1, hgrows _ _ (hb.backed e he _ _ _ hrecords).2⟩
  once := hb.once

/-- A step that records nothing adds nothing to what is known. -/
theorem Bounded.silent (hb : Bounded sha limits A h s phases) {e : ControlEvent} (hA : A e.call)
    (hsilent : ∀ tenantId key executionId, ¬Records e tenantId key executionId) :
    Bounded sha limits A (h ++ [e]) s phases := by
  have hold : ∀ {e' : ControlEvent}, e' ∈ h ++ [e] → ∀ {tenantId key executionId : String},
      Records e' tenantId key executionId → e' ∈ h := by
    intro e' he' tenantId key executionId hrecords
    rcases List.mem_append.mp he' with he' | he'
    · exact he'
    · rw [List.mem_singleton.mp he'] at hrecords
      exact absurd hrecords (hsilent _ _ _)
  constructor
  · exact hb.quota
  · exact hb.phased
  · intro e' he'
    rcases List.mem_append.mp he' with he' | he'
    · exact hb.asked e' he'
    · rw [List.mem_singleton.mp he']
      exact hA
  · intro tenantId executionId hrequested
    obtain ⟨e', he', hrecords⟩ := hb.recorded tenantId executionId hrequested
    exact ⟨e', List.mem_append_left _ he', hrecords⟩
  · intro e' he' tenantId key executionId hrecords
    exact hb.backed e' (hold he' hrecords) tenantId key executionId hrecords
  · intro e₁ he₁ e₂ he₂ tenantId key executionId executionId' h₁ h₂
    exact hb.once e₁ (hold he₁ h₁) e₂ (hold he₂ h₂) tenantId key executionId executionId' h₁ h₂

/-- Changing the phase of one call. -/
theorem phaseOk_update (hphases : ∀ i call phase, phases i = some (call, phase) →
      PhaseOk sha A s call phase) {i : Nat} {call : RequestCall} {phase : Phase}
    (hphase : PhaseOk sha A s call phase) : ∀ j call' phase',
      Function.update phases i (some (call, phase)) j = some (call', phase') →
        PhaseOk sha A s call' phase' := by
  intro j call' phase' hj
  by_cases hij : j = i
  · subst hij
    rw [Function.update_self] at hj
    obtain ⟨rfl, rfl⟩ := Prod.mk.inj (Option.some.inj hj)
    exact hphase
  · rw [Function.update_of_ne hij] at hj
    exact hphases j call' phase' hj

/-- **A step that appends**, if it keeps one key to one execution. -/
theorem Bounded.appended (hb : Bounded sha limits A h s phases) {i : Nat} {c : RequestCall}
    {a : AppendCall} {out : Except Error SandboxProjection × LedgerState}
    (hphase : PhaseOk sha A s c ⟨c, true⟩) (htenant : a.tenantId = c.request.tenantId.val)
    (hanswer : FactBook.Answer (factKind sha ports.reprOf) s.ledger a.key a.command a.text out)
    (hgood : KeyedOnce h ⟨i, c, .append a, s, { s with ledger := out.2 }⟩) :
    Bounded sha limits A (h ++ [⟨i, c, .append a, s, { s with ledger := out.2 }⟩])
      { s with ledger := out.2 } phases := by
  have hlast : ∀ {tenantId key executionId},
      Records ⟨i, c, .append a, s, { s with ledger := out.2 }⟩ tenantId key executionId →
      a.factType = .requestRecorded ∧ a.key = (tenantId, executionId) ∧
        c.request.idempotencyKey.val = key ∧ ¬Requested s (tenantId, executionId) := by
    rintro tenantId key executionId ⟨a', ⟨hlabel, htype⟩, hkey, hidempotency, hbefore, -⟩
    obtain rfl := PortCall.append.inj hlabel
    exact ⟨htype, hkey, hidempotency, hbefore⟩
  constructor
  · exact hb.quota
  · exact hb.phased
  · intro e' he'
    rcases List.mem_append.mp he' with he' | he'
    · exact hb.asked e' he'
    · rw [List.mem_singleton.mp he']
      exact hphase.1
  · intro tenantId executionId hrequested
    by_cases hbefore : Requested s (tenantId, executionId)
    · obtain ⟨e', he', hrecords⟩ := hb.recorded tenantId executionId hbefore
      exact ⟨e', List.mem_append_left _ he', hrecords⟩
    · obtain ⟨hkey, htype⟩ := requested_answer hanswer hbefore hrequested
      exact ⟨_, List.mem_append_right _ List.mem_cons_self, a, ⟨rfl, htype⟩, hkey, rfl, hbefore,
        hrequested⟩
  · intro e' he' tenantId key executionId hrecords
    rcases List.mem_append.mp he' with he' | he'
    · exact hb.backed e' he' tenantId key executionId hrecords
    · obtain rfl := List.mem_singleton.mp he'
      obtain ⟨-, hkey, -⟩ := hlast hrecords
      have hsame : c.request.tenantId.val = tenantId :=
        htenant.symm.trans (Prod.mk.inj hkey).1
      refine ⟨hsame, ?_⟩
      rw [← hsame]
      exact hphase.2.2 rfl
  · -- an older step and this one: the condition on this one says it
    have hmixed : ∀ e' ∈ h, ∀ {tenantId key executionId executionId' : String},
        Records e' tenantId key executionId' →
        Records ⟨i, c, .append a, s, { s with ledger := out.2 }⟩ tenantId key executionId →
        executionId' = executionId := by
      intro e' he' tenantId key executionId executionId' hold hnew
      obtain ⟨htype, hkey, hidempotency, hbefore⟩ := hlast hnew
      obtain ⟨rfl, rfl⟩ := Prod.mk.inj hkey
      exact hgood a ⟨rfl, htype⟩ hbefore e' he' executionId' (by rw [hidempotency]; exact hold)
    intro e₁ he₁ e₂ he₂ tenantId key executionId executionId' h₁ h₂
    rcases List.mem_append.mp he₁ with he₁ | he₁
    · rcases List.mem_append.mp he₂ with he₂ | he₂
      · exact hb.once e₁ he₁ e₂ he₂ _ _ _ _ h₁ h₂
      · obtain rfl := List.mem_singleton.mp he₂
        exact hmixed e₁ he₁ h₁ h₂
    · obtain rfl := List.mem_singleton.mp he₁
      rcases List.mem_append.mp he₂ with he₂ | he₂
      · exact (hmixed e₂ he₂ h₂ h₁).symm
      · obtain rfl := List.mem_singleton.mp he₂
        exact ((Prod.mk.inj (hlast h₁).2.1).2).symm.trans (Prod.mk.inj (hlast h₂).2.1).2

/-- **Every step keeps the bound**, if it keeps one key to one execution. -/
theorem bounded_kept : Chronicled (Goes sha ports) (fun call => ⟨call, false⟩)
    (fun m => ∀ i call, m = .start i call → A call) KeyedOnce (Bounded sha limits A) where
  start := by
    intro h s phases i call hA hb _
    refine hb.frame (fun _ h => h) hb.quota (fun _ _ h => h) (phaseOk_update hb.phased ?_)
    exact ⟨hA i call rfl, rfl, fun hno => (by cases hno)⟩
  crash := by
    intro h s phases i _ hb
    refine hb.frame (fun _ h => h) hb.quota (fun _ _ h => h) fun j call phase hj => ?_
    by_cases hij : j = i
    · rw [hij, Function.update_self] at hj
      cases hj
    · rw [Function.update_of_ne hij] at hj
      exact hb.phased j call phase hj
  turn := by
    intro h s phases i call phase label s' phase' hb hi hgoes hgood
    have hphase := hb.phased i call phase hi
    cases hgoes with
    | idle _ _ _ _ hidle =>
      have hrequested : ∀ key, Requested s' key ↔ Requested s key := by
        intro key
        unfold Requested
        rw [hidle.ledger]
      have hreserved : ∀ tenantId id, Reserved s' tenantId id ↔ Reserved s tenantId id := by
        intro tenantId id
        unfold Reserved
        rw [hidle.reservations]
      refine (hb.silent hphase.1 ?_).frame (fun key => (hrequested key).mp) (fun tenantId => ?_)
        (fun tenantId id => (hreserved tenantId id).mpr) ?_
      · rintro tenantId key executionId ⟨a, -, -, -, hbefore, hafter⟩
        exact hbefore ((hrequested _).mp hafter)
      · obtain ⟨ids, hnodup, hids, hsum, hleft⟩ := hb.quota tenantId
        rw [← hidle.remaining] at hsum hleft
        exact ⟨ids, hnodup, fun id => (hids id).trans (hreserved tenantId id).symm, hsum, hleft⟩
      · refine fun j call' phase'' hj => ?_
        have hok := phaseOk_update hb.phased hphase j call' phase'' hj
        exact ⟨hok.1, hok.2.1, fun hr => (hreserved _ _).mpr (hok.2.2 hr)⟩
    | reserves c _ _ out reserved hreserves hreserved =>
      obtain rfl : c = call := hphase.2.1
      obtain ⟨hledger, hgrows⟩ := hreserves.keeps
      have hrequested : ∀ key, Requested out.2 key ↔ Requested s key := by
        intro key
        unfold Requested
        rw [hledger]
      refine (hb.silent hphase.1 ?_).frame (fun key => (hrequested key).mp)
        (hreserves.quota hb.quota) hgrows ?_
      · rintro tenantId key executionId ⟨a, -, -, -, hbefore, hafter⟩
        exact hbefore ((hrequested _).mp hafter)
      · refine phaseOk_update (fun j call' phase'' hj => ?_) ⟨hphase.1, rfl, hreserved⟩
        have hok := hb.phased j call' phase'' hj
        exact ⟨hok.1, hok.2.1, fun hr => hgrows _ _ (hok.2.2 hr)⟩
    | appends c _ a out htenant hexecution hanswer =>
      obtain rfl : c = call := hphase.2.1
      refine (hb.appended hphase htenant hanswer hgood).frame (fun _ h => h) hb.quota
        (fun _ _ h => h) (phaseOk_update (s := { s with ledger := out.2 }) hb.phased hphase)

/-- The texts of the reservations that the calls of a run ask for. -/
def reservationTexts (moves : List (Move RequestCall)) : Set String :=
  {text | ∃ i call, Move.start i call ∈ moves ∧
    text = joinParts [call.request.tenantId.val, call.request.idempotencyKey.val]}

/-- **Quota bounds executions**: in every interleaving of calls, with calls that stop anywhere, that
    keeps one key to one execution, a tenant has no more executions than units. -/
theorem executions_within_quota (sha : Sha256) (ports : ControlPorts) (policy : SandboxPolicy)
    (limits : String → Int) (moves : List (Move RequestCall))
    (hfree : sha.CollisionFree (reservationTexts moves))
    (hkeyed : ∀ earlier e later,
      requestingEvents sha ports policy limits moves = earlier ++ e :: later → KeyedOnce earlier e)
    (tenantId : String) :
    (requestedExecutions (requesting sha ports policy limits moves).shared tenantId).encard ≤
      (limits tenantId).toNat := by
  have hstart : Bounded sha limits (fun call => ∃ i, Move.start i call ∈ moves) []
      (ControlState.start limits) (fun _ => none) := by
    refine ⟨fun tenant => ⟨[], List.nodup_nil, fun id => ?_, ?_, fun hne => absurd rfl hne⟩, ?_, ?_, ?_,
      ?_, ?_⟩
    · refine ⟨fun hmem => absurd hmem List.not_mem_nil, ?_⟩
      rintro ⟨d, hd, -⟩
      cases hd
    · show (0 : Int) + limits tenant = limits tenant
      omega
    · intro i call phase hi
      cases hi
    · exact fun _ he => absurd he List.not_mem_nil
    · rintro tenant executionId ⟨fact, hfact, -⟩
      exact absurd hfact List.not_mem_nil
    · exact fun _ he => absurd he List.not_mem_nil
    · exact fun _ he => absurd he List.not_mem_nil
  obtain ⟨phases, -, hb⟩ := bounded_kept.run (fun call => @request_goes _ _ policy call) moves
    (phased_start _) hstart
    (fun m hm i call hcall => ⟨i, hcall ▸ hm⟩) (fun earlier e later hevents => hkeyed earlier e later hevents)
  obtain ⟨ids, hnodup, hids, hsum, hleft⟩ := hb.quota tenantId
  have hlength : ids.length ≤ (limits tenantId).toNat := by
    by_cases hnil : ids = []
    · rw [hnil]
      exact Nat.zero_le _
    · have hnonneg := hleft hnil
      omega
  -- each execution has the reservation of the step that recorded it
  rcases isEmpty_or_nonempty ControlEvent with hempty | hsome
  · have hnone : requestedExecutions (requesting sha ports policy limits moves).shared tenantId = ∅ := by
      refine Set.eq_empty_of_forall_notMem fun executionId hmem => ?_
      obtain ⟨e, -⟩ := hb.recorded tenantId executionId hmem
      exact hempty.false e
    rw [hnone, Set.encard_empty]
    exact zero_le
  have hrecorded : ∀ executionId, executionId ∈
      requestedExecutions (requesting sha ports policy limits moves).shared tenantId →
      ∃ e ∈ [] ++ (Pool.start (.start limits)).events (request sha ports policy) moves,
        Records e tenantId e.call.request.idempotencyKey.val executionId :=
    fun executionId hmem => hb.recorded tenantId executionId hmem
  choose! step hstep using hrecorded
  have hmaps : Set.MapsTo (fun executionId => (reservationOf sha (step executionId).call.request).val)
      (requestedExecutions (requesting sha ports policy limits moves).shared tenantId)
      (ids.toFinset : Set String) := by
    intro executionId hmem
    obtain ⟨he, hrecords⟩ := hstep executionId hmem
    rw [Finset.mem_coe, List.mem_toFinset, hids]
    exact (hb.backed _ he _ _ _ hrecords).2
  have hinj : Set.InjOn (fun executionId => (reservationOf sha (step executionId).call.request).val)
      (requestedExecutions (requesting sha ports policy limits moves).shared tenantId) := by
    intro x hx y hy hxy
    obtain ⟨hex, hrx⟩ := hstep x hx
    obtain ⟨hey, hry⟩ := hstep y hy
    have htext : ∀ e ∈ [] ++ (Pool.start (.start limits)).events (request sha ports policy) moves,
        joinParts [e.call.request.tenantId.val, e.call.request.idempotencyKey.val] ∈
          reservationTexts moves := by
      intro e he
      obtain ⟨i, hi⟩ := hb.asked e he
      exact ⟨i, e.call, hi, rfl⟩
    have hparts := stableId_inj hfree (by decide) (by simp [Identifier.nulFree])
      (by simp [Identifier.nulFree]) (by simp) (by simp) (htext _ hex) (htext _ hey) hxy
    have hkey := (List.cons.inj (List.cons.inj hparts).2).1
    rw [← hkey] at hry
    exact hb.once _ hex _ hey _ _ _ _ hrx hry
  calc (requestedExecutions (requesting sha ports policy limits moves).shared tenantId).encard
      ≤ (ids.toFinset : Set String).encard := Set.encard_le_encard_of_injOn hmaps hinj
    _ = ids.length := by rw [Set.encard_coe_eq_coe_finsetCard, List.toFinset_card_of_nodup hnodup]
    _ ≤ (limits tenantId).toNat := by exact_mod_cast hlength

/-! ## A case -/

/-- An image with a digest. -/
def caseImage : String :=
  "r/i@sha256:" ++ "00000000000000000000000000000000" ++ "00000000000000000000000000000000"

/-- A call of `request` for an execution, under the one key `i`. -/
def caseCall (executionId : String) (h : isIdentifier executionId = true := by exact computed) : RequestCall where
  identity := {
    tenantId := ⟨"t", computed⟩, issuer := ⟨"https://i", computed⟩, subjectId := ⟨"s", computed⟩,
    principalKind := .human, roles := [], requestId := ⟨"q", computed⟩, traceId := ⟨"x", computed⟩ }
  request := {
    sampleRequest 1 with
    executionId := ⟨executionId, h⟩, spec := { sampleSpec with image := caseImage } }
  activeExecutions := 0
  commandId := executionId

/-- A policy that admits the spec. -/
def casePolicy : SandboxPolicy where
  tenantId := ⟨"t", computed⟩
  policyId := ⟨"p", computed⟩
  revision := 1
  enabled := true
  allowedImageDigests := [zeroHash]
  allowedRegistries := ["r"]
  allowedCommands := ["run"]
  allowedPurposes := [.analysis]
  allowedMountPrefixes := []
  allowedSecretRefs := []
  allowedEgress := []
  allowedApprovalPolicyDigests := [zeroHash]
  maximumResources := sampleSpec.resources
  maximumConcurrency := 1
  maximumLifetimeSeconds := 60
  maximumRisk := .low
  requireRuntimeClass := ⟨"c", computed⟩
  requireAdmissionPolicies := []
  policyDigest := zeroHash

def casePorts : ControlPorts where
  clock := fun _ => ⟨0, 0⟩
  authorize := fun _ _ _ => true
  currentApproval := fun _ _ _ => some sampleSpec.approval
  reprOf := fun _ => ""

/-- One unit for each tenant. -/
def caseLimits : String → Int := fun _ => 1

/-- A call, from start to end. -/
def callMoves (i : Nat) (call : RequestCall) : List (Move RequestCall) :=
  .start i call :: List.replicate 11 (.turn i)

/-- A call of its own. -/
def aloneMoves : List (Move RequestCall) := callMoves 0 (caseCall "e")

/-- Two calls with one key, one after the other, for two executions. -/
def twoMoves : List (Move RequestCall) := callMoves 0 (caseCall "e") ++ callMoves 1 (caseCall "f")

/-- The only execution a call of its own appends to is its own. -/
theorem alone_appends : ∀ e ∈ requestingEvents .constant casePorts casePolicy caseLimits aloneMoves,
    ∀ a, e.label = .append a → a.executionId = "e" := by
  have hall : (requestingEvents .constant casePorts casePolicy caseLimits aloneMoves).all (fun e =>
      match e.label with
      | .append a => decide (a.executionId = "e")
      | _ => true) = true := by decide +kernel
  intro e he a hlabel
  have hone := List.all_eq_true.mp hall e he
  rw [hlabel] at hone
  exact of_decide_eq_true hone

/-- A call of its own stays within its unit. -/
theorem executions_within_quota_sample :
    (requestedExecutions (requesting .constant casePorts casePolicy caseLimits aloneMoves).shared
      "t").encard ≤ (caseLimits "t").toNat := by
  refine executions_within_quota .constant casePorts casePolicy caseLimits aloneMoves ?_ ?_ "t"
  · refine .of_subsingleton ?_
    rintro _ ⟨i, call, hcall, rfl⟩ _ ⟨i', call', hcall', rfl⟩
    simp only [aloneMoves, callMoves, List.mem_cons, List.mem_replicate, Move.start.injEq, reduceCtorEq,
      and_false, or_false] at hcall hcall'
    rw [hcall.2, hcall'.2]
  · rintro earlier e later hevents a ⟨hlabel, -⟩ - e' he' executionId ⟨a', ⟨hlabel', -⟩, hkey, -⟩
    have hmem : ∀ x ∈ earlier ++ e :: later,
        x ∈ requestingEvents .constant casePorts casePolicy caseLimits aloneMoves := by
      intro x hx
      rw [hevents]
      exact hx
    have ha := alone_appends e (hmem e (by simp)) a hlabel
    have ha' := alone_appends e' (hmem e' (List.mem_append_left _ he')) a' hlabel'
    rw [ha, ← ha']
    exact (Prod.mk.inj hkey).2.symm

/-- **The defect**: two executions share the unit of their key. -/
theorem quota_exceeded :
    Sha256.constant.CollisionFree (reservationTexts twoMoves) ∧
      ¬(requestedExecutions (requesting .constant casePorts casePolicy caseLimits twoMoves).shared
        "t").encard ≤ (caseLimits "t").toNat := by
  refine ⟨.of_subsingleton ?_, fun h => ?_⟩
  · rintro _ ⟨i, call, hcall, rfl⟩ _ ⟨i', call', hcall', rfl⟩
    simp only [twoMoves, callMoves, List.mem_append, List.mem_cons, List.mem_replicate,
      Move.start.injEq, reduceCtorEq, and_false, or_false] at hcall hcall'
    rcases hcall with ⟨-, rfl⟩ | ⟨-, rfl⟩ <;> rcases hcall' with ⟨-, rfl⟩ | ⟨-, rfl⟩ <;> rfl
  · have hboth : ∀ executionId ∈ ["e", "f"], executionId ∈ requestedExecutions
        (requesting .constant casePorts casePolicy caseLimits twoMoves).shared "t" := by
      show ∀ executionId ∈ ["e", "f"], ∃ fact ∈ (requesting .constant casePorts casePolicy caseLimits
        twoMoves).shared.ledger.facts ("t", executionId), fact.factType = .requestRecorded
      decide +kernel
    have hsub : ({"e", "f"} : Set String) ⊆ requestedExecutions
        (requesting .constant casePorts casePolicy caseLimits twoMoves).shared "t" := by
      rintro x (rfl | rfl)
      · exact hboth _ (by simp)
      · exact hboth _ (by simp)
    have htwo := (Set.encard_le_encard hsub).trans h
    rw [Set.encard_pair (by decide)] at htwo
    exact absurd htwo (by decide)

end Sandbox

end Aegis
