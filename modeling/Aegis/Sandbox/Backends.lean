/-
  THE BACKENDS OF SANDBOX EXECUTIONS, and what a retry finds in them.

  A claim that has expired goes to a request of a later ATTEMPT; the claim store asks for the same spec,
  policy, approval and fence, and not for the same request digest.  Both backends tell executions apart
  by the REQUEST DIGEST, and the attempt is part of the request.  So whoever takes an execution over
  observes a conflict where his predecessor's execution is, and may not provision it
  (`takeover_unfinished`).

  `DeterministicSandboxBackend` keeps the digest beside the execution; `KubernetesJobSandboxBackend` keeps
  its first half as a label of the Job.  The API of the cluster is a parameter: what it makes of a
  manifest, with what the claim of the code rests on as `StoresLabels`.  All objects are in the namespace
  of the configuration, so they go by their names.
-/
import Mathlib
import Aegis.Lib.Machine
import Aegis.Sandbox.Claims

namespace Aegis

namespace Sandbox

open Exec (Sat)

/-! ## Observations and executions -/

structure BackendObservation where
  executionId : Identifier
  state : BackendObservationState
  providerUid : Option Identifier
  attempt : Nat
  fenceToken : Identifier
  observedAt : Datetime

structure BackendExecution where
  executionId : Identifier
  providerRef : Identifier
  providerUid : Identifier
  attempt : Nat
  fenceToken : Identifier
  provisionedAt : Datetime
deriving DecidableEq

/-- The observation found an execution and took it for that of the request. -/
def BackendObservation.Recognises (o : BackendObservation) (e : BackendExecution) : Prop :=
  o.state ≠ .absent ∧ o.state ≠ .conflict ∧ o.providerUid = some e.providerUid

/-! ## The deterministic backend -/

namespace Deterministic

/-- The fields of `DeterministicSandboxBackend`, but for the outcomes that `wait` hands out. -/
structure Backend where
  executions : String × String → Option BackendExecution
  requests : String × String → Option Digest
  cancelled : List (String × String)
  cleaned : List (String × String)
  calls : List String
  tick : Nat

def Backend.start : Backend := ⟨fun _ => none, fun _ => none, [], [], [], 0⟩

/-- `self.calls.append(name)`. -/
def called (name : String) : Exec Error Backend Unit :=
  Exec.modify fun s => { s with calls := s.calls ++ [name] }

def clockNow (clock : Nat → Datetime) : Exec Error Backend Datetime := do
  let s ← Exec.read
  Exec.modify fun s => { s with tick := s.tick + 1 }
  pure (clock s.tick)

/-- What `observe` makes of an execution. -/
def observedState (sha : Sha256) (s : Backend) (request : SandboxExecutionRequest) :
    BackendObservationState :=
  if ∃ prior ∈ s.requests request.key, prior ≠ request.requestDigest sha then .conflict
  else if request.key ∈ s.cleaned ∨ s.executions request.key = none then .absent
  else .running

/-- `observe`. -/
def observe (sha : Sha256) (clock : Nat → Datetime) (request : SandboxExecutionRequest) :
    Exec Error Backend BackendObservation := do
  called "observe"
  let s ← Exec.read
  let time ← clockNow clock
  pure { executionId := request.executionId, state := observedState sha s request,
         providerUid := (s.executions request.key).map (·.providerUid), attempt := request.attempt,
         fenceToken := request.fenceToken, observedAt := time }

/-- `provision`. -/
def provision (sha : Sha256) (clock : Nat → Datetime) (request : SandboxExecutionRequest) :
    Exec Error Backend BackendExecution := do
  called "provision"
  let observation ← observe sha clock request
  Exec.require (observation.state ≠ .conflict)
    ⟨.sandboxRejected, "deterministic sandbox request binding changed"⟩
  let s ← Exec.read
  match s.executions request.key with
  | some current => pure current
  | none => do
    let time ← clockNow clock
    let ref ← Exec.lift (Identifier.parse "BackendExecution.provider_ref"
      ("fake-" ++ request.executionId.val))
    let execution : BackendExecution :=
      { executionId := request.executionId, providerRef := ref,
        providerUid := stableIdentifier sha "fake-sandbox"
          [request.tenantId.val, request.executionId.val] 32,
        attempt := request.attempt, fenceToken := request.fenceToken, provisionedAt := time }
    Exec.modify fun s => { s with
      requests := Function.update s.requests request.key (some (request.requestDigest sha)),
      executions := Function.update s.executions request.key (some execution) }
    pure execution

/-- `cancel`. -/
def cancel (request : SandboxExecutionRequest) (execution : BackendExecution) :
    Exec Error Backend Unit := do
  called "cancel"
  let s ← Exec.read
  Exec.require (s.executions request.key = some execution)
    ⟨.sandboxRejected, "stale deterministic cancellation"⟩
  Exec.modify fun s => { s with cancelled := request.key :: s.cancelled }

/-- `cleanup`. -/
def cleanup (request : SandboxExecutionRequest) (execution : BackendExecution) :
    Exec Error Backend Unit := do
  called "cleanup"
  let s ← Exec.read
  Exec.require (s.executions request.key = some execution)
    ⟨.sandboxRejected, "stale deterministic cleanup"⟩
  Exec.modify fun s => { s with cleaned := request.key :: s.cleaned }

/-- A call of the backend. -/
inductive Op where
  | observe (request : SandboxExecutionRequest)
  | provision (request : SandboxExecutionRequest)
  | cancel (request : SandboxExecutionRequest) (execution : BackendExecution)
  | cleanup (request : SandboxExecutionRequest) (execution : BackendExecution)

/-- One call, and whether it returned. -/
def step (sha : Sha256) (clock : Nat → Datetime) (s : Backend) : Op → Bool × Backend
  | .observe request => ((observe sha clock request s).1.isOk, (observe sha clock request s).2)
  | .provision request => ((provision sha clock request s).1.isOk, (provision sha clock request s).2)
  | .cancel request execution => ((cancel request execution s).1.isOk, (cancel request execution s).2)
  | .cleanup request execution => ((cleanup request execution s).1.isOk, (cleanup request execution s).2)

/-- The backend after some calls. -/
def after (sha : Sha256) (clock : Nat → Datetime) (s : Backend) (ops : List Op) : Backend :=
  Machine.final (step sha clock) s ops

/-- Whoever holds the request can finish the execution: he observes it, gets it back, and deletes it. -/
structure Finishable (sha : Sha256) (clock : Nat → Datetime) (request : SandboxExecutionRequest)
    (execution : BackendExecution) (s : Backend) : Prop where
  observed : ∃ o, (observe sha clock request s).1 = .ok o ∧ o.Recognises execution
  returned : (provision sha clock request s).1 = .ok execution
  deleted : (cleanup request execution s).1 = .ok () ∧
    request.key ∈ (cleanup request execution s).2.cleaned

/-! ### What a call does -/

variable {sha : Sha256} {clock : Nat → Datetime} {request : SandboxExecutionRequest} {s s' : Backend}

/-- Executions and digests are stored together. -/
def Paired (s : Backend) : Prop := ∀ key, s.executions key = none ↔ s.requests key = none

/-- Digests are kept, and stored with executions only. -/
structure Grows (s s' : Backend) : Prop where
  paired : Paired s'
  kept : ∀ key digest, s.requests key = some digest → s'.requests key = some digest

/-- A call that stores no execution. -/
theorem Grows.same (hpaired : Paired s) (hexecutions : s'.executions = s.executions)
    (hrequests : s'.requests = s.requests) : Grows s s' := by
  constructor
  · intro key
    rw [hexecutions, hrequests]
    exact hpaired key
  · intro key digest h
    rw [hrequests]
    exact h

/-- `observe` looks at the state it is called in, and stores no execution. -/
theorem observe_sat (s : Backend) : Sat (observe sha clock request) s
    (fun o s' => s'.executions = s.executions ∧ s'.requests = s.requests ∧
      o.state = observedState sha s request) (fun _ _ => False) := by
  unfold observe called clockNow
  rw [Exec.sat_bind, Exec.sat_modify, Exec.sat_bind, Exec.sat_read, Exec.sat_bind, Exec.sat_bind,
    Exec.sat_read, Exec.sat_bind, Exec.sat_modify, Exec.sat_pure]
  exact ⟨rfl, rfl, rfl⟩

theorem observedState_conflict : observedState sha s request = .conflict ↔
    ∃ prior ∈ s.requests request.key, prior ≠ request.requestDigest sha := by
  unfold observedState
  split_ifs with hprior habsent
  · exact ⟨fun _ => hprior, fun _ => rfl⟩
  · exact ⟨fun h => (by cases h), fun h => absurd h hprior⟩
  · exact ⟨fun h => (by cases h), fun h => absurd h hprior⟩

/-- `provision` returns where the digest of its request is stored, and only there. -/
theorem provision_sat (hpaired : Paired s) : Sat (provision sha clock request) s
    (fun _ s' => Grows s s' ∧ s'.requests request.key = some (request.requestDigest sha))
    (fun _ s' => Grows s s') := by
  unfold provision called
  rw [Exec.sat_bind, Exec.sat_modify]
  refine Sat.call (observe_sat _) (fun _ _ h => h.elim) ?_
  rintro o s₁ ⟨hexecutions, hrequests, hstate⟩
  have hsame : Grows s s₁ := .same hpaired hexecutions hrequests
  refine Sat.check (fun _ => hsame) fun hfree => ?_
  rw [hstate, ne_eq, observedState_conflict] at hfree
  rw [Exec.sat_bind, Exec.sat_read]
  cases hcurrent : s₁.executions request.key with
  | some current =>
    refine ⟨hsame, ?_⟩
    -- an execution has a digest, and it is not another one
    cases hprior : s₁.requests request.key with
    | none =>
      rw [(hsame.paired request.key).mpr hprior] at hcurrent
      cases hcurrent
    | some prior =>
      have hown : prior = request.requestDigest sha := by
        by_contra hother
        exact hfree ⟨prior, by rw [← hrequests]; exact hprior, hother⟩
      rw [hown]
  | none =>
    have hnone : s₁.requests request.key = none := (hsame.paired request.key).mp hcurrent
    unfold clockNow
    rw [Exec.sat_bind, Exec.sat_bind, Exec.sat_read, Exec.sat_bind, Exec.sat_modify, Exec.sat_pure]
    refine Sat.attempt (fun _ _ => .same hpaired hexecutions hrequests) fun ref _ => ?_
    rw [Exec.sat_bind, Exec.sat_modify, Exec.sat_pure]
    refine ⟨⟨fun key => ?_, fun key digest hdigest => ?_⟩, Function.update_self ..⟩
    · show Function.update s₁.executions request.key _ key = none ↔
        Function.update s₁.requests request.key _ key = none
      by_cases hkey : key = request.key
      · rw [hkey, Function.update_self, Function.update_self]
        exact ⟨fun h => (by cases h), fun h => (by cases h)⟩
      · rw [Function.update_of_ne hkey, Function.update_of_ne hkey]
        exact hsame.paired key
    · show Function.update s₁.requests request.key _ key = some digest
      rw [Function.update_of_ne]
      · exact hsame.kept key digest hdigest
      · rintro rfl
        rw [hsame.kept _ digest hdigest] at hnone
        cases hnone

/-- What `cancel` and `cleanup` do first. -/
theorem held_sat {name : String} {execution : BackendExecution} {e : Error} {f : Backend → Backend}
    (hpaired : Paired s) (hexecutions : ∀ s, (f s).executions = s.executions)
    (hrequests : ∀ s, (f s).requests = s.requests) :
    Sat (do
        called name
        let s ← Exec.read
        Exec.require (s.executions request.key = some execution) e
        Exec.modify f) s
      (fun _ s' => Grows s s') (fun _ s' => Grows s s') := by
  unfold called
  rw [Exec.sat_bind, Exec.sat_modify, Exec.sat_bind, Exec.sat_read]
  refine Sat.check (fun _ => .same hpaired rfl rfl) fun _ => ?_
  rw [Exec.sat_modify]
  exact .same hpaired (hexecutions _) (hrequests _)

/-- **Every call keeps the digests.** -/
theorem step_grows (hpaired : Paired s) (op : Op) : Grows s (step sha clock s op).2 := by
  cases op with
  | observe request =>
    exact Sat.state ((observe_sat s).mono (fun _ _ h => .same hpaired h.1 h.2.1) fun _ _ h => h.elim)
  | provision request => exact Sat.state ((provision_sat hpaired).mono (fun _ _ h => h.1) fun _ _ h => h)
  | cancel request execution => exact Sat.state (held_sat hpaired (fun _ => rfl) fun _ => rfl)
  | cleanup request execution => exact Sat.state (held_sat hpaired (fun _ => rfl) fun _ => rfl)

/-- A run keeps them. -/
theorem after_grows (hpaired : Paired s) (ops : List Op) : Grows s (after sha clock s ops) := by
  refine Machine.run_invariant_all (fun s' op h => ?_) s ⟨hpaired, fun _ _ h => h⟩ ops
  have hstep := @step_grows sha clock _ h.paired op
  exact ⟨hstep.paired, fun key digest hdigest => hstep.kept key digest (h.kept key digest hdigest)⟩

theorem paired_start : Paired .start := fun _ => ⟨fun _ => rfl, fun _ => rfl⟩

/-- Where another digest is stored, a conflict is observed. -/
theorem observe_conflict {prior : Digest} (hprior : s.requests request.key = some prior)
    (hother : prior ≠ request.requestDigest sha) :
    (observe sha clock request s).1.map (·.state) = .ok .conflict := by
  have hsat : Sat (observe sha clock request) s
      (fun o _ => (Except.ok o : Except Error BackendObservation).map (·.state) = .ok .conflict)
      (fun e _ => (Except.error e : Except Error BackendObservation).map (·.state) = .ok .conflict) := by
    refine (observe_sat s).mono (fun o _ h => ?_) fun _ _ h => h.elim
    exact congrArg Except.ok (h.2.2.trans (observedState_conflict.mpr ⟨prior, hprior, hother⟩))
  exact hsat.outcome (P := fun (r : Except Error BackendObservation) _ => r.map (·.state) = .ok .conflict)

/-- There the execution cannot be finished. -/
theorem unfinishable {prior : Digest} (hprior : s.requests request.key = some prior)
    (hother : prior ≠ request.requestDigest sha) (e : BackendExecution) :
    ¬Finishable sha clock request e s := by
  rintro ⟨⟨o, ho, hrecognises⟩, -, -⟩
  have hconflict := @observe_conflict _ clock _ _ _ hprior hother
  rw [ho] at hconflict
  exact hrecognises.2.1 (Except.ok.inj hconflict)

end Deterministic

/-! ## The Kubernetes backend -/

namespace KubernetesJobs

abbrev Labels : Type := List (String × String)

/-- What is read of a Job.  Absent values stand for ones of another type, too. -/
structure Job where
  uid : Option String
  labels : Option Labels
  active : Option Int
  succeeded : Option Int
  failed : Option Int

/-- A selector of pods, as a mapping or as an object of the client. -/
inductive PodSelector where
  | mapping (entries : Labels)
  | object (matchLabels : Option Labels) (matchExpressions : Option (List String))

/-- What is read of a NetworkPolicy. -/
structure NetworkPolicy where
  labels : Option Labels
  podSelector : Option PodSelector
  policyTypes : Option (List String)

/-- The metadata of a manifest. -/
structure Manifest where
  name : String
  labels : Labels

/-- The objects by name, and the number of questions asked so far. -/
structure Cluster where
  jobs : String → Option Job
  policies : String → Option NetworkPolicy
  tick : Nat

/-- What is raised: an exception of the API with its status, or one of the backend. -/
inductive Raised where
  | api (status : Option Int)
  | own (error : Error)
deriving DecidableEq

def Raised.status : Raised → Option Int
  | .api status => status
  | .own _ => none

/-- `except (SandboxRejected, SandboxUnavailable)`. -/
def Raised.IsOwn (e : Raised) : Prop :=
  match e with
  | .own error => error.kind = .sandboxRejected ∨ error.kind = .sandboxUnavailable
  | .api _ => False

instance (e : Raised) : Decidable e.IsOwn := by
  cases e with
  | api => exact inferInstanceAs (Decidable False)
  | own error => exact inferInstanceAs (Decidable (_ ∨ _))

abbrev Run (α : Type) : Type := Exec Raised Cluster α

/-- The API: the exception in place of an answer, and what it makes of a manifest. -/
structure KubernetesApi where
  fails : Nat → Option (Option Int)
  job : Nat → Manifest → Job
  policy : Nat → Manifest → NetworkPolicy

/-- The API stores the labels it is given. -/
structure StoresLabels (api : KubernetesApi) : Prop where
  job : ∀ n manifest, (api.job n manifest).labels = some manifest.labels
  policy : ∀ n manifest, (api.policy n manifest).labels = some manifest.labels

/-- `KubernetesSandboxConfig`, as far as it is read here. -/
structure Config where
  namespaceName : String
  runtimeClass : String
  apparmorProfile : String
  admissionPolicyRefs : List String
  enabled : Bool
  manageNetworkPolicy : Bool

/-- The backend with its API, its probes and its clock. -/
structure Backend where
  api : KubernetesApi
  runtimeClassReady : Nat → String → Bool
  networkPolicyReady : Nat → String → Bool
  workloadIdentityReady : Nat → String → Bool
  admissionPolicyReady : Nat → String → Bool
  config : Config
  clock : Nat → Datetime

/-! ### The API -/

/-- The next question. -/
def question : Run Nat := do
  let c ← Exec.read
  Exec.modify fun c => { c with tick := c.tick + 1 }
  pure c.tick

/-- A call of the API that is answered. -/
def answered (b : Backend) : Run Nat := do
  let n ← question
  match b.api.fails n with
  | some status => Exec.raise (.api status)
  | none => pure n

/-- `read_namespaced_job`. -/
def readJob (b : Backend) (name : String) : Run Job := do
  let _ ← answered b
  let c ← Exec.read
  match c.jobs name with
  | none => Exec.raise (.api (some 404))
  | some job => pure job

/-- `create_namespaced_job`. -/
def createJob (b : Backend) (manifest : Manifest) : Run Job := do
  let n ← answered b
  let c ← Exec.read
  match c.jobs manifest.name with
  | some _ => Exec.raise (.api (some 409))
  | none => do
    let job := b.api.job n manifest
    Exec.modify fun c => { c with jobs := Function.update c.jobs manifest.name (some job) }
    pure job

/-- `delete_namespaced_job`, with the uid as a precondition. -/
def deleteJob (b : Backend) (name uid : String) : Run Unit := do
  let _ ← answered b
  let c ← Exec.read
  match c.jobs name with
  | none => Exec.raise (.api (some 404))
  | some job =>
    if job.uid = some uid then
      Exec.modify fun c => { c with jobs := Function.update c.jobs name none }
    else Exec.raise (.api (some 409))

/-- `read_namespaced_network_policy`. -/
def readPolicy (b : Backend) (name : String) : Run NetworkPolicy := do
  let _ ← answered b
  let c ← Exec.read
  match c.policies name with
  | none => Exec.raise (.api (some 404))
  | some policy => pure policy

/-- `create_namespaced_network_policy`. -/
def createPolicy (b : Backend) (manifest : Manifest) : Run NetworkPolicy := do
  let n ← answered b
  let c ← Exec.read
  match c.policies manifest.name with
  | some _ => Exec.raise (.api (some 409))
  | none => do
    let policy := b.api.policy n manifest
    Exec.modify fun c => { c with policies := Function.update c.policies manifest.name (some policy) }
    pure policy

/-- `delete_namespaced_network_policy`. -/
def deletePolicy (b : Backend) (name : String) : Run Unit := do
  let _ ← answered b
  let c ← Exec.read
  match c.policies name with
  | none => Exec.raise (.api (some 404))
  | some _ => Exec.modify fun c => { c with policies := Function.update c.policies name none }

/-! ### The backend -/

def clockNow (b : Backend) : Run Datetime := do
  let n ← question
  pure (b.clock n)

def raiseOwn {α : Type} (kind : ErrorKind) (message : String) : Run α :=
  Exec.raise (.own ⟨kind, message⟩)

def requireOwn (c : Prop) [Decidable c] (kind : ErrorKind) (message : String) : Run Unit :=
  Exec.require c (.own ⟨kind, message⟩)

/-- A field is validated. -/
def parseId (place text : String) : Run Identifier :=
  match Identifier.parse place text with
  | .ok id => pure id
  | .error e => Exec.raise (.own e)

/-- An optional field is validated. -/
def parseUid (place : String) : Option String → Run (Option Identifier)
  | none => pure none
  | some text => do return some (← parseId place text)

/-- The first half of `sha256(text).hexdigest()`. -/
def half (sha : Sha256) (text : String) : String := String.ofList ((sha.digits text).take 32)

/-- `_label_value`. -/
def labelValue (sha : Sha256) (kind value : String) : String := half sha (joinParts [kind, value])

/-- `_job_name`. -/
def jobName (sha : Sha256) (request : SandboxExecutionRequest) : String :=
  "aegis-sandbox-job-" ++ labelValue sha "job" request.executionId.val

/-- `_network_policy_name`. -/
def networkPolicyName (sha : Sha256) (request : SandboxExecutionRequest) : String :=
  "aegis-sandbox-net-" ++ labelValue sha "network" request.executionId.val

/-- `request.request_digest[:32]`. -/
def requestLabel (sha : Sha256) (request : SandboxExecutionRequest) : String :=
  half sha (request.requestText sha)

/-- The labels that tell whose a Job is. -/
def identityLabels (sha : Sha256) (request : SandboxExecutionRequest) : Labels :=
  [("app.kubernetes.io/managed-by", "aegis-sandbox-v1"),
    ("aegis.github.com/execution", labelValue sha "execution" request.executionId.val),
    ("aegis.github.com/request-digest", requestLabel sha request),
    ("aegis.github.com/fence", labelValue sha "fence" request.fenceToken.val)]

/-- `_labels`. -/
def labels (sha : Sha256) (request : SandboxExecutionRequest) : Labels :=
  identityLabels sha request ++ [("aegis.github.com/attempt", request.attempt.repr)]

/-- The labels hold all that is expected. -/
def Labels.Hold (found : Option Labels) (expected : Labels) : Prop :=
  ∃ entries ∈ found, ∀ e ∈ expected, entries.lookup e.1 = some e.2

instance (found : Option Labels) (expected : Labels) : Decidable (Labels.Hold found expected) := by
  cases found with
  | none => exact .isFalse (by rintro ⟨_, h, -⟩; cases h)
  | some entries =>
    exact decidable_of_iff (∀ e ∈ expected, entries.lookup e.1 = some e.2)
      ⟨fun h => ⟨entries, rfl, h⟩, by rintro ⟨_, h, hall⟩; cases h; exact hall⟩

/-- `ready`. -/
def ready (b : Backend) : Run Bool := do
  let n ← question
  pure (b.config.enabled && b.runtimeClassReady n b.config.runtimeClass &&
    b.networkPolicyReady n b.config.namespaceName &&
    b.workloadIdentityReady n b.config.namespaceName &&
    b.config.admissionPolicyRefs.all (b.admissionPolicyReady n))

/-- `_require_ready`. -/
def requireReady (b : Backend) (request : SandboxExecutionRequest) : Run Unit := do
  let isReady ← ready b
  requireOwn (isReady = true) .sandboxUnavailable
    "sandbox admission/runtime/network/workload-identity prerequisites are not ready"
  requireOwn (request.spec.security.apparmorProfile.val = b.config.apparmorProfile) .sandboxRejected
    "sandbox AppArmor profile is not deployment-approved"
  requireOwn (request.spec.requiredRuntimeClass.val = b.config.runtimeClass) .sandboxRejected
    "sandbox RuntimeClass requirement is not satisfied"
  requireOwn (request.spec.requiredAdmissionPolicies.map (·.val) = b.config.admissionPolicyRefs)
    .sandboxRejected "sandbox admission policy requirements are not satisfied"
  requireOwn (request.spec.network.mode ≠ .exactDestinations) .sandboxRejected
    ("exact DNS egress proxy policy registration is not implemented; " ++
      "standard Kubernetes NetworkPolicy cannot enforce FQDN destinations")

/-- The state of a Job of the request. -/
def jobState (job : Job) : BackendObservationState :=
  if (∃ n ∈ job.succeeded, 0 < n) ∨ (∃ n ∈ job.failed, n ≠ 0) then .terminal
  else if ∃ n ∈ job.active, 0 < n then .running
  else .provisioning

/-- The Job has the labels of the request, and a uid. -/
def Mine (sha : Sha256) (request : SandboxExecutionRequest) (job : Job) : Prop :=
  Labels.Hold job.labels (identityLabels sha request) ∧ ∃ uid ∈ job.uid, uid ≠ ""

instance (sha : Sha256) (request : SandboxExecutionRequest) (job : Job) :
    Decidable (Mine sha request job) := inferInstanceAs (Decidable (_ ∧ _))

def observation (b : Backend) (request : SandboxExecutionRequest) (state : BackendObservationState)
    (uid : Option String) : Run BackendObservation := do
  let time ← clockNow b
  let providerUid ← parseUid "BackendObservation.provider_uid" uid
  pure { executionId := request.executionId, state, providerUid, attempt := request.attempt,
         fenceToken := request.fenceToken, observedAt := time }

/-- The Job, or nothing where there is none. -/
def findJob (b : Backend) (name : String) : Run (Option Job) :=
  Exec.catching (do return some (← readJob b name)) fun e =>
    if e.status = some 404 then pure none
    else raiseOwn .sandboxUnavailable "Kubernetes Job observation failed"

/-- `observe`. -/
def observe (sha : Sha256) (b : Backend) (request : SandboxExecutionRequest) :
    Run BackendObservation := do
  requireReady b request
  let found ← findJob b (jobName sha request)
  match found with
  | none => observation b request .absent none
  | some job =>
    if Mine sha request job then observation b request (jobState job) job.uid
    else observation b request .conflict (job.uid.filter (· ≠ ""))

/-- `_network_policy`. -/
def networkPolicy (sha : Sha256) (b : Backend) (request : SandboxExecutionRequest) :
    Run (Option NetworkPolicy) :=
  Exec.catching (do return some (← readPolicy b (networkPolicyName sha request))) fun e =>
    if e.status = some 404 then pure none
    else raiseOwn .sandboxUnavailable "Kubernetes NetworkPolicy observation failed"

/-- The selector selects every pod. -/
def PodSelector.isEmpty : PodSelector → Bool
  | .mapping entries => entries.isEmpty
  | .object matchLabels matchExpressions =>
    matchLabels.all List.isEmpty && matchExpressions.all List.isEmpty

/-- `_require_namespace_default_deny`. -/
def requireNamespaceDefaultDeny (b : Backend) : Run Unit := do
  let policy ← Exec.catching (readPolicy b "default-deny") fun _ =>
    raiseOwn .sandboxUnavailable "sandbox namespace default-deny NetworkPolicy is unavailable"
  let types := policy.policyTypes.getD []
  requireOwn (policy.podSelector.any PodSelector.isEmpty = true ∧
      "Ingress" ∈ types ∧ "Egress" ∈ types ∧ ∀ t ∈ types, t = "Ingress" ∨ t = "Egress")
    .sandboxRejected "sandbox namespace default-deny NetworkPolicy is incomplete"

/-- `_require_network_policy`. -/
def requireNetworkPolicy (sha : Sha256) (b : Backend) (request : SandboxExecutionRequest) : Run Unit :=
  if b.config.manageNetworkPolicy = false then requireNamespaceDefaultDeny b
  else do
    let policy ← networkPolicy sha b request
    requireOwn (Labels.Hold (policy.bind (·.labels)) (labels sha request)) .sandboxRejected
      "Kubernetes NetworkPolicy identity binding conflicts"

/-- `_ensure_network_policy`. -/
def ensureNetworkPolicy (sha : Sha256) (b : Backend) (request : SandboxExecutionRequest) : Run Unit :=
  if b.config.manageNetworkPolicy = false then requireNamespaceDefaultDeny b
  else do
    let existing ← networkPolicy sha b request
    match existing with
    | some _ => requireNetworkPolicy sha b request
    | none =>
      -- `network_policy_manifest` asks again whether the backend is ready
      Exec.catching (do
          requireReady b request
          let _ ← createPolicy b ⟨networkPolicyName sha request, labels sha request⟩) fun e =>
        if e.status = some 409 then requireNetworkPolicy sha b request else Exec.raise e

/-- `_delete_network_policy`. -/
def deleteNetworkPolicy (sha : Sha256) (b : Backend) (request : SandboxExecutionRequest) : Run Unit :=
  if b.config.manageNetworkPolicy = false then pure ()
  else do
    let policy ← networkPolicy sha b request
    match policy with
    | none => pure ()
    | some _ => do
      requireNetworkPolicy sha b request
      Exec.catching (deletePolicy b (networkPolicyName sha request)) fun e =>
        if e.status = some 404 then pure () else Exec.raise e

/-- `BackendExecution(...)`. -/
def execution (sha : Sha256) (request : SandboxExecutionRequest) (uid : Identifier) (time : Datetime) :
    Run BackendExecution := do
  let ref ← parseId "BackendExecution.provider_ref" (jobName sha request)
  pure { executionId := request.executionId, providerRef := ref, providerUid := uid,
         attempt := request.attempt, fenceToken := request.fenceToken, provisionedAt := time }

/-- The `try` of `provision`. -/
def create (sha : Sha256) (b : Backend) (request : SandboxExecutionRequest) : Run Job :=
  Exec.catching (do
      ensureNetworkPolicy sha b request
      requireReady b request
      createJob b ⟨jobName sha request, labels sha request⟩) fun e =>
    if e.IsOwn then Exec.raise e
    else raiseOwn .sandboxAmbiguous "Kubernetes create outcome is ambiguous; reconcile by identity"

/-- `provision`. -/
def provision (sha : Sha256) (b : Backend) (request : SandboxExecutionRequest) :
    Run BackendExecution := do
  let o ← observe sha b request
  requireOwn (o.state ≠ .conflict) .sandboxRejected "Kubernetes Job identity binding conflicts"
  if o.state = .absent then do
    let job ← create sha b request
    match job.uid.filter (· ≠ "") with
    | none => raiseOwn .sandboxAmbiguous "Kubernetes create returned no stable Job UID"
    | some uid => do
      let time ← clockNow b
      let providerUid ← parseId "BackendExecution.provider_uid" uid
      execution sha request providerUid time
  else
    match o.providerUid with
    | none => raiseOwn .sandboxAmbiguous "existing Kubernetes Job has no stable UID"
    | some uid => do
      requireNetworkPolicy sha b request
      execution sha request uid o.observedAt

/-- `_delete`, which is `cancel` and `cleanup`. -/
def cleanup (sha : Sha256) (b : Backend) (request : SandboxExecutionRequest)
    (execution : BackendExecution) : Run Unit := do
  let o ← observe sha b request
  requireOwn (o.state = .absent ∨ o.providerUid = some execution.providerUid) .sandboxRejected
    "refusing to delete a different Kubernetes Job UID"
  Exec.catching (do
      if o.state = .absent then pure ()
      else deleteJob b execution.providerRef.val execution.providerUid.val
      deleteNetworkPolicy sha b request) fun _ =>
    raiseOwn .sandboxAmbiguous "Kubernetes delete outcome is ambiguous; reconcile by UID"

/-- Whoever holds the request can finish the execution: he observes it, gets it back while no second Job
    appears, and deletes it. -/
structure Finishable (sha : Sha256) (b : Backend) (request : SandboxExecutionRequest)
    (execution : BackendExecution) (c : Cluster) : Prop where
  observed : ∃ o, (observe sha b request c).1 = .ok o ∧ o.Recognises execution
  returned : ∃ e, (provision sha b request c).1 = .ok e ∧ e.providerUid = execution.providerUid ∧
    (provision sha b request c).2.jobs = c.jobs
  deleted : (cleanup sha b request execution c).1 = .ok () ∧
    (cleanup sha b request execution c).2.jobs (jobName sha request) = none

/-! ### What leaves the Jobs alone -/

/-- The Jobs are as they were, whether or not the body raises. -/
def Leaves {α : Type} (x : Run α) : Prop :=
  ∀ c, Sat x c (fun _ c' => c'.jobs = c.jobs) (fun _ c' => c'.jobs = c.jobs)

section Leaving

variable {α β : Type} {x : Run α} {f : α → Run β}

theorem leaves_pure (a : α) : Leaves (pure a : Run α) := fun _ => rfl

theorem leaves_raise (e : Raised) : Leaves (Exec.raise e : Run α) := fun _ => rfl

theorem leaves_bind (hx : Leaves x) (hf : ∀ a, Leaves (f a)) : Leaves (x >>= f) := by
  intro c
  refine Sat.call (hx c) (fun _ _ h => h) fun a c' hjobs => ?_
  exact (hf a c').mono (fun _ _ h => h.trans hjobs) fun _ _ h => h.trans hjobs

theorem leaves_catching {handler : Raised → Run α} (hx : Leaves x) (hh : ∀ e, Leaves (handler e)) :
    Leaves (Exec.catching x handler) := by
  intro c
  rw [Exec.sat_catching]
  refine (hx c).mono (fun _ _ h => h) fun e c' hjobs => ?_
  exact (hh e c').mono (fun _ _ h => h.trans hjobs) fun _ _ h => h.trans hjobs

theorem leaves_require {p : Prop} [Decidable p] {kind : ErrorKind} {message : String} :
    Leaves (requireOwn p kind message) := fun _ => Exec.sat_require.mpr ⟨fun _ => rfl, fun _ => rfl⟩

theorem leaves_question : Leaves question := by
  intro c
  unfold question
  rw [Exec.sat_bind, Exec.sat_read, Exec.sat_bind, Exec.sat_modify, Exec.sat_pure]

theorem leaves_read : Leaves (Exec.read : Run Cluster) := fun _ => rfl

theorem leaves_answered (b : Backend) : Leaves (answered b) := by
  refine leaves_bind leaves_question fun n => ?_
  cases b.api.fails n with
  | none => exact leaves_pure n
  | some status => exact leaves_raise _

theorem leaves_parseId (place text : String) : Leaves (parseId place text) := by
  unfold parseId
  cases Identifier.parse place text with
  | ok id => exact leaves_pure id
  | error e => exact leaves_raise _

theorem leaves_clockNow (b : Backend) : Leaves (clockNow b) :=
  leaves_bind leaves_question fun _ => leaves_pure _

theorem leaves_parseUid (place : String) (uid : Option String) : Leaves (parseUid place uid) := by
  cases uid with
  | none => exact leaves_pure _
  | some text => exact leaves_bind (leaves_parseId place text) fun _ => leaves_pure _

variable {sha : Sha256} {b : Backend} {request : SandboxExecutionRequest}

theorem leaves_requireReady : Leaves (requireReady b request) :=
  leaves_bind (leaves_bind leaves_question fun _ => leaves_pure _) fun _ =>
    leaves_bind (leaves_require) fun _ => leaves_bind (leaves_require) fun _ =>
      leaves_bind (leaves_require) fun _ => leaves_bind (leaves_require) fun _ =>
        leaves_require

theorem leaves_execution (uid : Identifier) (time : Datetime) :
    Leaves (execution sha request uid time) :=
  leaves_bind (leaves_parseId _ _) fun _ => leaves_pure _

theorem leaves_readPolicy (name : String) : Leaves (readPolicy b name) := by
  refine leaves_bind (leaves_answered b) fun _ => leaves_bind leaves_read fun c => ?_
  cases c.policies name with
  | none => exact leaves_raise _
  | some policy => exact leaves_pure policy

theorem leaves_createPolicy (manifest : Manifest) : Leaves (createPolicy b manifest) := by
  refine leaves_bind (leaves_answered b) fun _ => leaves_bind leaves_read fun c => ?_
  cases c.policies manifest.name with
  | some _ => exact leaves_raise _
  | none => exact leaves_bind (fun _ => rfl) fun _ => leaves_pure _

theorem leaves_networkPolicy : Leaves (networkPolicy sha b request) := by
  refine leaves_catching (leaves_bind (leaves_readPolicy _) fun _ => leaves_pure _) fun e => ?_
  split
  · exact leaves_pure _
  · exact leaves_raise _

theorem leaves_requireNetworkPolicy : Leaves (requireNetworkPolicy sha b request) := by
  unfold requireNetworkPolicy
  split
  · exact leaves_bind (leaves_catching (leaves_readPolicy _) fun _ => leaves_raise _) fun _ =>
      leaves_require
  · exact leaves_bind leaves_networkPolicy fun _ => leaves_require

theorem leaves_ensureNetworkPolicy : Leaves (ensureNetworkPolicy sha b request) := by
  unfold ensureNetworkPolicy
  split
  · exact leaves_bind (leaves_catching (leaves_readPolicy _) fun _ => leaves_raise _) fun _ =>
      leaves_require
  · refine leaves_bind leaves_networkPolicy fun existing => ?_
    cases existing with
    | some _ => exact leaves_requireNetworkPolicy
    | none =>
      refine leaves_catching (leaves_bind leaves_requireReady fun _ =>
        leaves_bind (leaves_createPolicy _) fun _ => leaves_pure _) fun e => ?_
      split
      · exact leaves_requireNetworkPolicy
      · exact leaves_raise _

end Leaving

/-! ### What a call does -/

variable {sha : Sha256} {b : Backend} {request : SandboxExecutionRequest} {c : Cluster}

/-- What an observation says of the Job of its request. -/
inductive Observed (sha : Sha256) (request : SandboxExecutionRequest) (c : Cluster) :
    BackendObservationState → Prop
  | absent : Observed sha request c .absent
  | conflict (job : Job) (h : c.jobs (jobName sha request) = some job)
    (hother : ¬Mine sha request job) : Observed sha request c .conflict
  | mine (job : Job) (h : c.jobs (jobName sha request) = some job) (hmine : Mine sha request job) :
    Observed sha request c (jobState job)

/-- A Job that is found is stored. -/
theorem findJob_sat (b : Backend) (name : String) (c : Cluster) : Sat (findJob b name) c
    (fun found c' => c'.jobs = c.jobs ∧ ∀ job, found = some job → c.jobs name = some job)
    (fun _ _ => True) := by
  unfold findJob
  rw [Exec.sat_catching]
  have hread : Sat (readJob b name) c (fun job c' => c'.jobs = c.jobs ∧ c.jobs name = some job)
      (fun _ c' => c'.jobs = c.jobs) := by
    unfold readJob
    refine Sat.call (leaves_answered b c) (fun _ _ h => h) fun _ c' hjobs => ?_
    rw [Exec.sat_bind, Exec.sat_read]
    cases hjob : c'.jobs name with
    | none => exact hjobs
    | some job => exact ⟨hjobs, hjobs ▸ hjob⟩
  refine Sat.call hread ?_ ?_
  · intro e c' hjobs
    split
    · exact ⟨hjobs, fun _ h => (by cases h)⟩
    · trivial
  · rintro job c' ⟨hjobs, hjob⟩
    exact ⟨hjobs, fun _ h => Option.some.inj h ▸ hjob⟩

theorem observation_state (state : BackendObservationState) (uid : Option String) (c : Cluster) :
    Sat (observation b request state uid) c (fun o c' => c'.jobs = c.jobs ∧ o.state = state)
      (fun _ _ => True) := by
  unfold observation
  refine Sat.call (leaves_clockNow b c) (fun _ _ _ => trivial) fun time c' hjobs => ?_
  refine Sat.call (leaves_parseUid _ _ c') (fun _ _ _ => trivial) fun uid' c'' hjobs' => ?_
  exact ⟨hjobs'.trans hjobs, rfl⟩

/-- `observe` says what is stored. -/
theorem observe_sat (sha : Sha256) (b : Backend) (request : SandboxExecutionRequest) (c : Cluster) :
    Sat (observe sha b request) c
      (fun o c' => c'.jobs = c.jobs ∧ Observed sha request c o.state) (fun _ _ => True) := by
  unfold observe
  refine Sat.call (leaves_requireReady c) (fun _ _ _ => trivial) fun _ c₁ hready => ?_
  refine Sat.call (findJob_sat b _ c₁) (fun _ _ _ => trivial) ?_
  rintro found c₂ ⟨hjobs, hfound⟩
  have hsame : c₂.jobs = c.jobs := hjobs.trans hready
  cases found with
  | none =>
    refine (observation_state _ _ c₂).mono (fun o c' h => ⟨h.1.trans hsame, ?_⟩) fun _ _ h => h
    rw [h.2]
    exact .absent
  | some job =>
    have hjob : c.jobs (jobName sha request) = some job := by
      rw [← hready]
      exact hfound job rfl
    dsimp only
    split_ifs with hmine
    · refine (observation_state _ _ c₂).mono (fun o c' h => ⟨h.1.trans hsame, ?_⟩) fun _ _ h => h
      rw [h.2]
      exact .mine job hjob hmine
    · refine (observation_state _ _ c₂).mono (fun o c' h => ⟨h.1.trans hsame, ?_⟩) fun _ _ h => h
      rw [h.2]
      exact .conflict job hjob hmine

/-- The Job of the request carries its digest. -/
def Bound (sha : Sha256) (request : SandboxExecutionRequest) (job : Job) : Prop :=
  ∃ entries ∈ job.labels,
    entries.lookup "aegis.github.com/request-digest" = some (requestLabel sha request)

theorem bound_of_mine {job : Job} (h : Mine sha request job) : Bound sha request job := by
  obtain ⟨⟨entries, hentries, hall⟩, -⟩ := h
  exact ⟨entries, hentries, hall ("aegis.github.com/request-digest", requestLabel sha request)
    (by simp [identityLabels])⟩

/-- Two requests of which a Job carries the digest have the same. -/
theorem bound_label {request' : SandboxExecutionRequest} {job : Job} (h : Bound sha request job)
    (h' : Bound sha request' job) : requestLabel sha request = requestLabel sha request' := by
  obtain ⟨entries, hentries, hdigest⟩ := h
  obtain ⟨entries', hentries', hdigest'⟩ := h'
  obtain rfl : entries = entries' := Option.some.inj (hentries.symm.trans hentries')
  exact Option.some.inj (hdigest.symm.trans hdigest')

/-- A Job that is created carries the labels it was created with. -/
theorem create_sat (hstores : StoresLabels b.api) (c : Cluster) : Sat (create sha b request) c
    (fun job c' => c'.jobs (jobName sha request) = some job ∧ Bound sha request job)
    (fun _ _ => True) := by
  have hraise : ∀ (e : Raised) (c' : Cluster), Sat (if e.IsOwn then Exec.raise e
      else raiseOwn .sandboxAmbiguous "Kubernetes create outcome is ambiguous; reconcile by identity" :
        Run Job) c' (fun job c' => c'.jobs (jobName sha request) = some job ∧ Bound sha request job)
      (fun _ _ => True) := by
    intro e c'
    split
    · trivial
    · trivial
  unfold create
  rw [Exec.sat_catching]
  refine Sat.call (leaves_ensureNetworkPolicy c) (fun e c' _ => hraise e c') fun _ c₁ _ => ?_
  refine Sat.call (leaves_requireReady c₁) (fun e c' _ => hraise e c') fun _ c₂ _ => ?_
  unfold createJob
  refine Sat.call (leaves_answered b c₂) (fun e c' _ => hraise e c') fun n c₃ _ => ?_
  rw [Exec.sat_bind, Exec.sat_read]
  cases c₃.jobs (jobName sha request) with
  | some _ => exact hraise (.api (some 409)) c₃
  | none =>
    rw [Exec.sat_bind, Exec.sat_modify, Exec.sat_pure]
    refine ⟨Function.update_self .., labels sha request, hstores.job n _, ?_⟩
    simp [labels, identityLabels, List.lookup]

/-- **`provision` returns where the Job carries the digest of its request**, and only there. -/
theorem provision_sat (hstores : StoresLabels b.api) (c : Cluster) : Sat (provision sha b request) c
    (fun _ c' => ∃ job, c'.jobs (jobName sha request) = some job ∧ Bound sha request job)
    (fun _ _ => True) := by
  unfold provision
  refine Sat.call (observe_sat sha b request c) (fun _ _ _ => trivial) ?_
  rintro o c₁ ⟨hjobs, hobserved⟩
  refine Sat.check (fun _ => trivial) fun hconflict => ?_
  by_cases habsent : o.state = .absent
  · rw [if_pos habsent]
    refine Sat.call (create_sat hstores c₁) (fun _ _ _ => trivial) ?_
    rintro job c₂ ⟨hjob, hbound⟩
    cases job.uid.filter (· ≠ "") with
    | none => trivial
    | some uid =>
      refine Sat.call (leaves_clockNow b c₂) (fun _ _ _ => trivial) fun time c₃ hjobs₃ => ?_
      refine Sat.call (leaves_parseId _ _ c₃) (fun _ _ _ => trivial) fun uid' c₄ hjobs₄ => ?_
      refine (leaves_execution uid' time c₄).mono (fun _ c₅ hjobs₅ => ⟨job, ?_, hbound⟩)
        fun _ _ _ => trivial
      rw [hjobs₅, hjobs₄, hjobs₃]
      exact hjob
  · rw [if_neg habsent]
    have hmine : ∃ job, c.jobs (jobName sha request) = some job ∧ Bound sha request job := by
      revert habsent hconflict hobserved
      generalize o.state = state
      rintro hobserved hconflict habsent
      cases hobserved with
      | absent => exact absurd rfl habsent
      | conflict => exact absurd rfl hconflict
      | mine job hjob hmine => exact ⟨job, hjob, bound_of_mine hmine⟩
    obtain ⟨job, hjob, hbound⟩ := hmine
    cases o.providerUid with
    | none => trivial
    | some uid =>
      refine Sat.call (leaves_requireNetworkPolicy c₁) (fun _ _ _ => trivial) fun _ c₂ hjobs₂ => ?_
      refine (leaves_execution uid o.observedAt c₂).mono (fun _ c₃ hjobs₃ => ⟨job, ?_, hbound⟩)
        fun _ _ _ => trivial
      rw [hjobs₃, hjobs₂, hjobs]
      exact hjob

/-- Where the Job carries another digest, the execution cannot be finished. -/
theorem unfinishable {other : SandboxExecutionRequest} {job : Job}
    (hjob : c.jobs (jobName sha request) = some job) (hbound : Bound sha other job)
    (hother : requestLabel sha other ≠ requestLabel sha request) (e : BackendExecution) :
    ¬Finishable sha b request e c := by
  rintro ⟨⟨o, ho, hpresent, hfree, -⟩, -, -⟩
  obtain ⟨-, hobserved⟩ := (observe_sat sha b request c).ok (Prod.ext ho rfl)
  revert hpresent hfree hobserved
  generalize o.state = state
  rintro hpresent hfree hobserved
  cases hobserved with
  | absent => exact hpresent rfl
  | conflict => exact hfree rfl
  | mine job' hjob' hmine =>
    obtain rfl : job = job' := Option.some.inj (hjob.symm.trans hjob')
    exact hother (bound_label hbound (bound_of_mine hmine))

end KubernetesJobs

/-! ## Taking over -/

/-- `r'` differs from `r` in the attempt and the time only, and so in the digest. -/
def Retries (r' r : SandboxExecutionRequest) : Prop :=
  r' = { r with attempt := r'.attempt, requestedAt := r'.requestedAt, attempt_ok := r'.attempt_ok }

/-- `r` was claimed, its claim expired without a result, and `r'` was granted the claim. -/
structure TakenOver (sha : Sha256) (r r' : SandboxExecutionRequest) (claims : Claims)
    (worker worker' : String) (now claimUntil now' claimUntil' : Datetime) : Prop where
  claimed : ∃ c, (claim sha r worker now claimUntil claims).1 = .ok c ∧ c.resultDigest = none ∧
    c.claimUntil ≤ now'
  granted : ∃ c, (claim sha r' worker' now' claimUntil'
    (claim sha r worker now claimUntil claims).2).1 = .ok c

section Takeover

variable {sha : Sha256} {r r' : SandboxExecutionRequest} {claims : Claims} {worker worker' : String}
  {now claimUntil now' claimUntil' : Datetime}

/-- Who takes over has a later attempt. -/
theorem TakenOver.attempt (h : TakenOver sha r r' claims worker worker' now claimUntil now' claimUntil')
    (hkey : r'.key = r.key) : r.attempt < r'.attempt := by
  obtain ⟨⟨c, hc, hopen, hexpired⟩, c', hc'⟩ := h
  -- the first claim is stored under the attempt of `r`
  have hstored : (claim sha r worker now claimUntil claims).2 r.key = some c ∧
      c.attempt = r.attempt := by
    have hout := claim_outcome sha claims r worker now claimUntil
    revert hout hc
    generalize claim sha r worker now claimUntil claims = out
    intro hc hout
    cases hout with
    | refused e => cases hc
    | settled d hd hsettled =>
      obtain rfl := Except.ok.inj hc
      rw [hopen] at hsettled
      cases hsettled
    | fresh w | renewed w | takenOver w =>
      obtain rfl := Except.ok.inj hc
      exact ⟨Function.update_self .., rfl⟩
  have hout := claim_outcome sha (claim sha r worker now claimUntil claims).2 r' worker' now' claimUntil'
  revert hout hc'
  generalize claim sha r' worker' now' claimUntil' (claim sha r worker now claimUntil claims).2 = out
  intro hc' hout
  have hsame : ∀ d, (claim sha r worker now claimUntil claims).2 r'.key = some d → d = c := by
    intro d hd
    rw [hkey, hstored.1] at hd
    exact (Option.some.inj hd).symm
  cases hout with
  | refused e => cases hc'
  | settled d hd hsettled =>
    rw [hsame d hd, hopen] at hsettled
    cases hsettled
  | fresh w hw hlive hnone =>
    rw [hkey, hstored.1] at hnone
    cases hnone
  | renewed w hw hlive d hd hbinding hnone hunexpired =>
    rw [hsame d hd] at hunexpired
    have hlive : now'.instant < c.claimUntil.instant := hunexpired
    exact absurd hlive (not_lt.mpr hexpired)
  | takenOver w hw hlive d hd hbinding hnone hexpired' hattempt =>
    rw [hsame d hd, hstored.2] at hattempt
    exact hattempt

/-- A claim that is open, expired and of an earlier attempt is granted anew. -/
theorem claim_takesOver {request : SandboxExecutionRequest} {workerRef : String} {now claimUntil : Datetime}
    {s : Claims} {c : SandboxClaim} {worker : Identifier} (hc : s request.key = some c)
    (hbinding : c.binding = request.binding sha) (hopen : c.resultDigest = none)
    (hlive : now < claimUntil) (hexpired : c.claimUntil ≤ now) (hattempt : c.attempt < request.attempt)
    (hworker : Identifier.parse "worker_ref" workerRef = .ok worker) :
    ∃ c', (claim sha request workerRef now claimUntil s).1 = .ok c' := by
  have hsat : Sat (claim sha request workerRef now claimUntil) s
      (fun c _ => ∃ c', (.ok c : Except Error SandboxClaim) = .ok c')
      (fun e _ => ∃ c', (.error e : Except Error SandboxClaim) = .ok c') := by
    unfold claim
    refine Sat.check (fun h => absurd hlive h) fun _ => ?_
    rw [Exec.sat_bind, Exec.sat_read, hc]
    refine Sat.check (fun h => absurd hbinding h) fun _ => ?_
    rw [if_neg (by rw [hopen]; exact Bool.false_ne_true)]
    have hover : ¬now < c.claimUntil := by
      intro hunexpired
      have hlate : now.instant < c.claimUntil.instant := hunexpired
      exact absurd hlate (not_lt.mpr hexpired)
    refine Sat.check (fun h => absurd (fun hmine => absurd hmine.1 hover) h) fun _ => ?_
    refine Sat.check (fun h => absurd (fun hbehind => absurd hattempt (by omega)) h) fun _ => ?_
    refine Sat.attempt (fun e he => ?_) fun _ _ => ⟨_, rfl⟩
    rw [hworker] at he
    cases he
  exact hsat.outcome (P := fun r _ => ∃ c, r = .ok c)

theorem Retries.key (h : Retries r' r) : r'.key = r.key := by
  rw [h]
  rfl

theorem Retries.jobName (h : Retries r' r) :
    KubernetesJobs.jobName sha r' = KubernetesJobs.jobName sha r := by
  rw [h]
  rfl

/-- A retry may take over what was claimed. -/
theorem Retries.binding (h : Retries r' r) (worker : Identifier) (claimUntil : Datetime) :
    (newClaim sha r worker claimUntil).binding = r'.binding sha := by
  rw [h]
  rfl

/-- The digests differ, and so do their first halves. -/
theorem TakenOver.digests
    (h : TakenOver sha r r' claims worker worker' now claimUntil now' claimUntil')
    (hretries : Retries r' r) (hfree : sha.CollisionFree {r.requestText sha, r'.requestText sha}) :
    r.requestDigest sha ≠ r'.requestDigest sha ∧
      KubernetesJobs.requestLabel sha r ≠ KubernetesJobs.requestLabel sha r' := by
  have hattempt := h.attempt hretries.key
  have htext : r.requestText sha ≠ r'.requestText sha := by
    intro htext
    have hsame := SandboxExecutionRequest.requestText_attempt htext
    omega
  constructor
  · exact fun hdigest => htext (hfree.hexdigest (by simp) (by simp) hdigest)
  · intro hlabel
    exact htext (hfree 32 (by decide) (by simp) (by simp) (String.ofList_inj.mp hlabel))

/-- **An execution that is taken over cannot be finished**: in neither backend, whatever was called
    before it was provisioned, and whatever happened to the rest of the backend since. -/
theorem takeover_unfinished (sha : Sha256) (r r' : SandboxExecutionRequest) (claims : Claims)
    (worker worker' : String) (now claimUntil now' claimUntil' : Datetime)
    (htaken : TakenOver sha r r' claims worker worker' now claimUntil now' claimUntil')
    (hretries : Retries r' r) (hfree : sha.CollisionFree {r.requestText sha, r'.requestText sha}) :
    (∀ clock before s e, Deterministic.provision sha clock r
        (Deterministic.after sha clock .start before) = (.ok e, s) →
      ∀ later, ¬Deterministic.Finishable sha clock r' e (Deterministic.after sha clock s later)) ∧
    (∀ b, KubernetesJobs.StoresLabels b.api → ∀ c e c',
      KubernetesJobs.provision sha b r c = (.ok e, c') →
      ∀ c'', (c''.jobs (KubernetesJobs.jobName sha r)).map (·.labels) =
          (c'.jobs (KubernetesJobs.jobName sha r)).map (·.labels) →
        ¬KubernetesJobs.Finishable sha b r' e c'') := by
  obtain ⟨hdigest, hlabel⟩ := htaken.digests hretries hfree
  constructor
  · intro clock before s e hprovision later
    have hpaired := (@Deterministic.after_grows sha clock _ Deterministic.paired_start before).paired
    obtain ⟨hgrows, hstored⟩ := (Deterministic.provision_sat hpaired).ok hprovision
    have hkept := (@Deterministic.after_grows sha clock _ hgrows.paired later).kept
      _ _ hstored
    rw [← hretries.key] at hkept
    exact Deterministic.unfinishable hkept hdigest e
  · intro b hstores c e c' hprovision c'' hsame
    obtain ⟨job, hjob, hbound⟩ := (KubernetesJobs.provision_sat hstores c).ok hprovision
    rw [hjob, ← hretries.jobName] at hsame
    obtain ⟨job', hjob', hlabels⟩ := Option.map_eq_some_iff.mp hsame
    obtain ⟨entries, hentries, hlookup⟩ := hbound
    have hbound' : KubernetesJobs.Bound sha r job' := ⟨entries, by rw [hlabels]; exact hentries, hlookup⟩
    exact KubernetesJobs.unfinishable hjob' hbound' hlabel e

end Takeover

/-! ## A case -/

/-- A hash that tells the two attempts apart: the attempt is the 97th character of a request. -/
def attemptHash : Sha256 := .byChar 96

/-- A cluster that answers, is ready, and lets nothing in or out. -/
def caseBackend : KubernetesJobs.Backend where
  api := {
    fails := fun _ => none
    job := fun _ manifest => ⟨some "u", some manifest.labels, some 1, none, none⟩
    policy := fun _ manifest => ⟨some manifest.labels, some (.mapping []), some []⟩ }
  runtimeClassReady := fun _ _ => true
  networkPolicyReady := fun _ _ => true
  workloadIdentityReady := fun _ _ => true
  admissionPolicyReady := fun _ _ => true
  config := ⟨"sandbox", "c", "x", [], true, false⟩
  clock := fun _ => ⟨0, 0⟩

def caseCluster : KubernetesJobs.Cluster where
  jobs := fun _ => none
  policies := fun name =>
    if name = "default-deny" then some ⟨none, some (.mapping []), some ["Ingress", "Egress"]⟩ else none
  tick := 0

/-- What the first attempt claims. -/
def firstClaim : SandboxClaim := newClaim attemptHash (sampleRequest 1) ⟨"w1", computed⟩ ⟨10, 0⟩

/-- The second attempt takes the execution over when the claim of the first has expired. -/
theorem case_takenOver : TakenOver attemptHash (sampleRequest 1) (sampleRequest 2) (fun _ => none)
    "w1" "w2" ⟨0, 0⟩ ⟨10, 0⟩ ⟨10, 0⟩ ⟨20, 0⟩ := by
  have hfirst : claim attemptHash (sampleRequest 1) "w1" ⟨0, 0⟩ ⟨10, 0⟩ (fun _ => none) =
      (.ok firstClaim, Function.update (fun _ => none) (sampleRequest 1).key (some firstClaim)) := rfl
  constructor
  · exact ⟨firstClaim, congrArg Prod.fst hfirst, rfl, by decide⟩
  · rw [hfirst]
    have hretries : Retries (sampleRequest 2) (sampleRequest 1) := rfl
    have hstored : Function.update (fun _ => none) (sampleRequest 1).key (some firstClaim)
        (sampleRequest 2).key = some firstClaim := by
      rw [hretries.key]
      exact Function.update_self ..
    have hworker : Identifier.parse "worker_ref" "w2" = .ok ⟨"w2", by decide⟩ := rfl
    exact claim_takesOver hstored (hretries.binding _ _) rfl (by decide) (by decide) (by decide) hworker

theorem case_free : attemptHash.CollisionFree
    {(sampleRequest 1).requestText attemptHash, (sampleRequest 2).requestText attemptHash} := by
  have hchars : ∀ r : SandboxExecutionRequest, (attemptHash.digits (r.requestText attemptHash)).head? =
      some (hexDigit (((canonicalChars (r.modelDump attemptHash)).getD 96 'a').toNat % 16)) := by
    intro r
    show (List.replicate 64 (hexDigit (((String.ofList (canonicalChars
      (r.modelDump attemptHash))).toList.getD 96 'a').toNat % 16))).head? = _
    rw [String.toList_ofList]
    rfl
  refine .of_pair ?_
  rw [hchars, hchars]
  decide +kernel

/-- A call that returns. -/
theorem returns_of_isOk {ε σ α : Type} {x : Exec ε σ α} {s : σ} (h : (x s).1.isOk = true) :
    ∃ a s', x s = (.ok a, s') := by
  revert h
  rcases x s with ⟨r, s'⟩
  cases r with
  | ok a => exact fun _ => ⟨a, s', rfl⟩
  | error e => exact fun h => (by cases h)

theorem takeover_unfinished_sample :
    ∃ e s, Deterministic.provision attemptHash (fun _ => ⟨0, 0⟩) (sampleRequest 1) .start = (.ok e, s) ∧
      ∀ later, ¬Deterministic.Finishable attemptHash (fun _ => ⟨0, 0⟩) (sampleRequest 2) e
        (Deterministic.after attemptHash (fun _ => ⟨0, 0⟩) s later) := by
  obtain ⟨e, s, hout⟩ := returns_of_isOk (x := Deterministic.provision attemptHash (fun _ => ⟨0, 0⟩)
    (sampleRequest 1)) (s := .start) (by decide +kernel)
  exact ⟨e, s, hout, (takeover_unfinished attemptHash (sampleRequest 1) (sampleRequest 2) (fun _ => none)
    "w1" "w2" ⟨0, 0⟩ ⟨10, 0⟩ ⟨10, 0⟩ ⟨20, 0⟩ case_takenOver rfl case_free).1 _ [] s e hout⟩

theorem caseBackend_stores : KubernetesJobs.StoresLabels caseBackend.api :=
  ⟨fun _ _ => rfl, fun _ _ => rfl⟩

/-- **The defect.**  The execution is provisioned and taken over, and the second attempt cannot finish
    it; in the deterministic backend it observes a conflict. -/
theorem takeover_conflicts :
    TakenOver attemptHash (sampleRequest 1) (sampleRequest 2) (fun _ => none) "w1" "w2" ⟨0, 0⟩ ⟨10, 0⟩
      ⟨10, 0⟩ ⟨20, 0⟩ ∧ Retries (sampleRequest 2) (sampleRequest 1) ∧
    (∃ e s, Deterministic.provision attemptHash (fun _ => ⟨0, 0⟩) (sampleRequest 1) .start = (.ok e, s) ∧
      (Deterministic.observe attemptHash (fun _ => ⟨0, 0⟩) (sampleRequest 2) s).1.map (·.state) =
        .ok .conflict ∧
      ¬Deterministic.Finishable attemptHash (fun _ => ⟨0, 0⟩) (sampleRequest 2) e s) ∧
    ∃ e c, KubernetesJobs.provision attemptHash caseBackend (sampleRequest 1) caseCluster = (.ok e, c) ∧
      ¬KubernetesJobs.Finishable attemptHash caseBackend (sampleRequest 2) e c := by
  have hretries : Retries (sampleRequest 2) (sampleRequest 1) := rfl
  obtain ⟨hdigest, hlabel⟩ := case_takenOver.digests hretries case_free
  refine ⟨case_takenOver, hretries, ?_, ?_⟩
  · obtain ⟨e, s, hout⟩ := returns_of_isOk (x := Deterministic.provision attemptHash (fun _ => ⟨0, 0⟩)
      (sampleRequest 1)) (s := .start) (by decide +kernel)
    obtain ⟨-, hstored⟩ := (Deterministic.provision_sat Deterministic.paired_start).ok hout
    rw [← hretries.key] at hstored
    exact ⟨e, s, hout, Deterministic.observe_conflict hstored hdigest,
      Deterministic.unfinishable hstored hdigest e⟩
  · obtain ⟨e, c, hout⟩ := returns_of_isOk (x := KubernetesJobs.provision attemptHash caseBackend
      (sampleRequest 1)) (s := caseCluster) (by decide +kernel)
    obtain ⟨job, hjob, hbound⟩ := (KubernetesJobs.provision_sat caseBackend_stores caseCluster).ok hout
    rw [← hretries.jobName] at hjob
    exact ⟨e, c, hout, KubernetesJobs.unfinishable hjob hbound hlabel e⟩

end Sandbox

end Aegis
