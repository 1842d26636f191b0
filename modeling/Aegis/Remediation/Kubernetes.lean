/-
  THE KUBERNETES ADAPTER.

  `execute` patches a Deployment so that its pods restart, and puts the operation id into the annotations
  OF THE POD TEMPLATE.  `observe` and `execute` look for it in the annotations OF THE DEPLOYMENT, which the
  patch leaves alone.  The patch gives the Deployment a new resource version, and after the marker the
  resource version is all that they look at.

  So the adapter never recognises its own effect (`never_recognises`): after its patch it observes a
  CONFLICT, and an execution that is asked again is refused (`Patched`).

  The API is a parameter, with what the claim of the code rests on as `StoresExactly`: a patch writes what
  it says, and the resource version changes.
-/
import Mathlib
import Aegis.Remediation.Recovery

namespace Aegis

namespace Remediation

namespace Kubernetes

open Exec (Sat)

/-! ## The API -/

/-- What is read of a Deployment, and the annotations of its pod template. -/
structure Deployment where
  uid : Option String
  resourceVersion : Option String
  annotations : String → Option String
  templateAnnotations : String → Option String
  availableReplicas : Option Int
  observedGeneration : Option Int

/-- The body of a patch: what it names, and the annotations it sets, of the object and of the template. -/
structure Patch where
  name : String
  namespaceName : String
  uid : String
  resourceVersion : String
  annotations : List (String × String)
  templateAnnotations : List (String × String)

/-- The Deployments by namespace and name, the number of patches stored, and of readings of the clock. -/
structure Cluster where
  deployments : String × String → Option Deployment
  writes : Nat
  tick : Nat

/-- `KubernetesDeploymentApi`: what a patch makes of a Deployment, whether the answer to a patch that was
    stored is lost, and the exception where there is no such Deployment. -/
structure DeploymentApi where
  write : Patch → Deployment → Deployment
  lost : Nat → Option Error
  notFound : Error

/-- Annotations after a patch. -/
def merged (new : List (String × String)) (old : String → Option String) (key : String) : Option String :=
  (new.lookup key).or (old key)

/-- The API stores exactly what a patch writes, with a new resource version. -/
structure StoresExactly (api : DeploymentApi) : Prop where
  uid : ∀ patch d, (api.write patch d).uid = d.uid
  version : ∀ patch d, (api.write patch d).resourceVersion ≠ d.resourceVersion
  annotations : ∀ patch d, (api.write patch d).annotations = merged patch.annotations d.annotations
  templateAnnotations : ∀ patch d,
    (api.write patch d).templateAnnotations = merged patch.templateAnnotations d.templateAnnotations

/-- The adapter: `KubernetesRolloutRestartAdapter(api, clock, enabled)`. -/
structure Adapter where
  api : DeploymentApi
  clock : Nat → Datetime
  enabled : Bool

/-- `read_namespaced_deployment`. -/
def readDeployment (a : Adapter) (namespaceName name : String) : Exec Error Cluster Deployment := do
  let c ← Exec.read
  match c.deployments (namespaceName, name) with
  | none => Exec.raise a.api.notFound
  | some d => pure d

/-- The exception in place of an answer that is lost. -/
def answer (lost : Option Error) (d : Deployment) : Exec Error Cluster Deployment :=
  match lost with
  | some e => Exec.raise e
  | none => pure d

/-- `patch_namespaced_deployment`.  A dry run stores nothing. -/
def patchDeployment (a : Adapter) (body : Patch) (dryRun : Bool) : Exec Error Cluster Deployment := do
  let d ← readDeployment a body.namespaceName body.name
  let updated := a.api.write body d
  if dryRun = true then pure updated
  else do
    let c ← Exec.read
    Exec.modify fun c => { c with
      deployments := Function.update c.deployments (body.namespaceName, body.name) (some updated),
      writes := c.writes + 1 }
    answer (a.api.lost c.writes) updated

/-! ## The adapter -/

/-- `_DeploymentState`. -/
structure DeploymentState where
  uid : String
  resourceVersion : String
  annotations : String → Option String
  availableReplicas : Int
  observedGeneration : Int

/-- `_deployment_state`.  The client's annotations are texts. -/
def deploymentState (value : Deployment) : Except Error DeploymentState :=
  match value.uid, value.resourceVersion, value.availableReplicas, value.observedGeneration with
  | some uid, some resourceVersion, some available, some observed =>
    .ok { uid, resourceVersion, annotations := value.annotations, availableReplicas := available,
          observedGeneration := observed }
  | _, _, _, _ => .error ⟨.effectConflict, "Kubernetes deployment response shape is invalid"⟩

/-- `_ANNOTATION`. -/
def rolloutMarker : String := "aegis.github.com/rollout-operation"

/-- `self._clock.now()`. -/
def clockNow (a : Adapter) : Exec Error Cluster Datetime := do
  let c ← Exec.read
  Exec.modify fun c => { c with tick := c.tick + 1 }
  pure (a.clock c.tick)

/-- `_validate_enabled`.  An intent has no other type of action. -/
def validateEnabled (a : Adapter) : Exec Error Cluster Unit :=
  Exec.require (a.enabled = true) ⟨.effectsDisabled, "Kubernetes effects are disabled by default"⟩

/-- `_read`. -/
def read (a : Adapter) (intent : ActionIntent) : Exec Error Cluster DeploymentState := do
  let value ← readDeployment a intent.action.target.namespaceName.val intent.action.target.name.val
  Exec.lift (deploymentState value)

/-- `_require_identity`. -/
def requireIdentity (intent : ActionIntent) (state : DeploymentState) : Exec Error Cluster Unit :=
  Exec.require (state.uid = intent.action.target.uid.val)
    ⟨.effectConflict, "Kubernetes target UID changed"⟩

/-- `_require_exact_target`. -/
def requireExactTarget (intent : ActionIntent) (state : DeploymentState) :
    Exec Error Cluster Unit := do
  requireIdentity intent state
  Exec.require (state.resourceVersion = intent.action.target.resourceVersion.val)
    ⟨.effectConflict, "Kubernetes target resourceVersion changed"⟩

/-- `_patch`: the operation goes into the annotations of the template. -/
def patchOf (intent : ActionIntent) : Patch where
  name := intent.action.target.name.val
  namespaceName := intent.action.target.namespaceName.val
  uid := intent.action.target.uid.val
  resourceVersion := intent.action.target.resourceVersion.val
  annotations := []
  templateAnnotations := [(rolloutMarker, intent.operationId.val),
    ("aegis.github.com/requested-at", intent.requestedAt.isoformat),
    ("aegis.github.com/fence", intent.fenceToken.val)]

/-- `f"kubernetes:{state.uid}:{state.resource_version}"`. -/
def receiptRef (state : DeploymentState) : String :=
  "kubernetes:" ++ state.uid ++ ":" ++ state.resourceVersion

/-- Validation of an optional reference. -/
def parseRef (place : String) : Option String → Except Error (Option Identifier)
  | none => .ok none
  | some text => do return some (← Identifier.parse place text)

/-- `_receipt`. -/
def receiptFor (a : Adapter) (intent : ActionIntent) (outcome : EffectOutcome) (detailCode : Identifier)
    (providerReceiptRef : Option String) : Exec Error Cluster ActionReceipt := do
  let time ← clockNow a
  let ref ← Exec.lift (parseRef "ActionReceipt.provider_receipt_ref" providerReceiptRef)
  pure (syntheticReceipt intent outcome detailCode time ref)

/-- `dry_run`. -/
def dryRun (a : Adapter) (intent : ActionIntent) : Exec Error Cluster ActionReceipt := do
  validateEnabled a
  let state ← read a intent
  requireExactTarget intent state
  let _ ← patchDeployment a (patchOf intent) true
  receiptFor a intent .dryRunSucceeded (literalIdentifier "dry_run_valid") none

/-- What `observe` reads off a Deployment: the marker first, then the resource version. -/
def observationState (intent : ActionIntent) (state : DeploymentState) : ObservationState :=
  if state.annotations rolloutMarker = some intent.operationId.val then .applied
  else if state.resourceVersion = intent.action.target.resourceVersion.val then .before
  else .conflict

/-- The facts of an observation. -/
def observedFacts (state : DeploymentState) : ObservedFacts :=
  (AList.singleton "observed_generation" (.int state.observedGeneration)).insert "available_replicas"
    (.int state.availableReplicas)

theorem observedFacts_short (state : DeploymentState) : (observedFacts state).entries.length ≤ 32 := by
  simp [observedFacts, AList.singleton, AList.insert]

/-- `observe`. -/
def observe (a : Adapter) (intent : ActionIntent) : Exec Error Cluster ActionObservation := do
  validateEnabled a
  let state ← read a intent
  requireIdentity intent state
  let observation := observationState intent state
  let time ← clockNow a
  let ref ← Exec.lift (parseRef "ActionObservation.provider_receipt_ref"
    (if observation = .applied then some (receiptRef state) else none))
  pure { tenantId := intent.tenantId, planId := intent.planId, actionId := intent.action.actionId,
         operationId := intent.operationId,
         targetFingerprint := intent.action.target.resourceFingerprint, state := observation,
         facts := observedFacts state, observedAt := time, providerReceiptRef := ref,
         attemptFence := intent.fenceToken, facts_ok := observedFacts_short state }

/-- `execute`. -/
def execute (a : Adapter) (intent : ActionIntent) : Exec Error Cluster ActionReceipt := do
  validateEnabled a
  let state ← read a intent
  requireIdentity intent state
  if state.annotations rolloutMarker = some intent.operationId.val then
    receiptFor a intent .duplicate (literalIdentifier "duplicate_suppressed") (some (receiptRef state))
  else do
    requireExactTarget intent state
    let result ← patchDeployment a (patchOf intent) false
    let updated ← Exec.lift (deploymentState result)
    requireIdentity intent updated
    receiptFor a intent .succeeded (literalIdentifier "rollout_restart_requested")
      (some (receiptRef updated))

/-- `compensate`: it refuses in any case. -/
def compensate (a : Adapter) (intent : ActionIntent) : Exec Error Cluster ActionReceipt := do
  validateEnabled a
  Exec.require (intent.action.compensation.enabled = true ∧
      intent.action.compensation.action = .rollbackRevision)
    ⟨.effectConflict, "rollback is not bound in the exact action"⟩
  Exec.raise ⟨.effectConflict, "rollout restart has no safe inverse; rollback revision requires a " ++
    "separately approved fixed image action"⟩

/-! ## What the adapter should do -/

/-- The Deployment an intent aims at. -/
def targetKey (intent : ActionIntent) : String × String :=
  (intent.action.target.namespaceName.val, intent.action.target.name.val)

/-- The cluster after a number of executions. -/
def executed (a : Adapter) (intent : ActionIntent) : Nat → Cluster → Cluster
  | 0, c => c
  | n + 1, c => executed a intent n (execute a intent c).2

/-- The adapter recognises its own effect: it observes the state before, and once an execution has stored
    its patch, it observes that the effect is there, and further executions are duplicates that store
    nothing. -/
structure Recognises (a : Adapter) (intent : ActionIntent) (c : Cluster) : Prop where
  before : ∃ o, (observe a intent c).1 = .ok o ∧ o.state = .before
  applied : (execute a intent c).2.writes = c.writes + 1 → ∀ n,
    let c' := executed a intent n (execute a intent c).2
    (∃ o, (observe a intent c').1 = .ok o ∧ o.state = .applied) ∧
    (∃ receipt, (execute a intent c').1 = .ok receipt ∧ receipt.outcome = .duplicate) ∧
    (execute a intent c').2.writes = c'.writes

/-! ## What it does -/

section Laws

variable {a : Adapter} {intent : ActionIntent} {c : Cluster} {d : Deployment} {state : DeploymentState}

theorem deploymentState_ok (h : deploymentState d = .ok state) :
    d.uid = some state.uid ∧ d.resourceVersion = some state.resourceVersion ∧
      d.annotations = state.annotations := by
  unfold deploymentState at h
  split at h
  · rename_i huid hversion _ _
    rw [← Except.ok.inj h]
    exact ⟨huid, hversion, rfl⟩
  · cases h

/-- A Deployment is read as it is stored. -/
theorem read_found (hfound : c.deployments (targetKey intent) = some d)
    {Q : DeploymentState → Cluster → Prop} {R : Error → Cluster → Prop}
    (hok : ∀ state, deploymentState d = .ok state → Q state c)
    (herror : ∀ e, deploymentState d = .error e → R e c) : Sat (read a intent) c Q R := by
  unfold read readDeployment
  unfold targetKey at hfound
  rw [Exec.sat_bind, Exec.sat_bind, Exec.sat_read, hfound, Exec.sat_pure, Exec.sat_lift]
  exact ⟨hok, herror⟩

theorem read_missing (hmissing : c.deployments (targetKey intent) = none) :
    Sat (read a intent) c (fun _ _ => False) (fun _ c' => c' = c) := by
  unfold read readDeployment
  unfold targetKey at hmissing
  rw [Exec.sat_bind, Exec.sat_bind, Exec.sat_read, hmissing]
  rfl

/-- The Deployments and the number of patches are the same. -/
structure Kept (c c' : Cluster) : Prop where
  deployments : c'.deployments = c.deployments
  writes : c'.writes = c.writes

theorem receiptFor_kept {outcome : EffectOutcome} {detailCode : Identifier} {ref : Option String} :
    Sat (receiptFor a intent outcome detailCode ref) c (fun _ => Kept c) (fun _ => Kept c) := by
  unfold receiptFor clockNow
  rw [Exec.sat_bind, Exec.sat_bind, Exec.sat_read, Exec.sat_bind, Exec.sat_modify, Exec.sat_pure]
  exact Sat.attempt (fun _ _ => ⟨rfl, rfl⟩) fun _ _ => ⟨rfl, rfl⟩

/-- A patch that is not a dry run is stored, whether or not its answer arrives. -/
theorem patchDeployment_stores {body : Patch}
    (hfound : c.deployments (body.namespaceName, body.name) = some d) :
    let c' : Cluster := { c with
      deployments := Function.update c.deployments (body.namespaceName, body.name)
        (some (a.api.write body d)),
      writes := c.writes + 1 }
    Sat (patchDeployment a body false) c (fun _ s => s = c') (fun _ s => s = c') := by
  intro c'
  unfold patchDeployment readDeployment
  rw [Exec.sat_bind, Exec.sat_bind, Exec.sat_read]
  dsimp only
  rw [hfound, Exec.sat_pure, if_neg Bool.false_ne_true, Exec.sat_bind, Exec.sat_read, Exec.sat_bind,
    Exec.sat_modify]
  unfold answer
  cases a.api.lost c.writes with
  | some e => rfl
  | none => rfl

/-- What an observation was read off. -/
structure Observed (a : Adapter) (intent : ActionIntent) (c : Cluster) (o : ActionObservation)
    (d : Deployment) (state : DeploymentState) : Prop where
  enabled : a.enabled = true
  found : c.deployments (targetKey intent) = some d
  read : deploymentState d = .ok state
  uid : state.uid = intent.action.target.uid.val
  state : o.state = observationState intent state

theorem observe_ok {o : ActionObservation} (h : (observe a intent c).1 = .ok o) :
    ∃ d state, Observed a intent c o d state := by
  have hsat : Sat (observe a intent) c (fun o _ => ∃ d state, Observed a intent c o d state)
      (fun _ _ => True) := by
    unfold observe
    refine Sat.check (fun _ => trivial) fun henabled => ?_
    rw [Exec.sat_bind]
    cases hfound : c.deployments (targetKey intent) with
    | none => exact (read_missing hfound).mono (fun _ _ h => h.elim) fun _ _ _ => trivial
    | some d =>
      refine read_found hfound (fun state hread => ?_) fun _ _ => trivial
      refine Sat.check (fun _ => trivial) fun huid => Sat.skip fun _ _ => Sat.skip fun _ _ => ?_
      exact ⟨d, state, henabled, hfound, hread, huid, rfl⟩
  exact hsat.ok (Prod.ext h rfl)

/-- A patch of the adapter leaves the annotations of the Deployment alone. -/
theorem write_annotations (hstores : StoresExactly a.api) :
    (a.api.write (patchOf intent) d).annotations = d.annotations := by
  rw [hstores.annotations]
  rfl

/-- The marker is not where the adapter looks for it, and the resource version is another. -/
structure Patched (intent : ActionIntent) (c : Cluster) (d : Deployment) : Prop where
  found : c.deployments (targetKey intent) = some d
  unmarked : d.annotations rolloutMarker ≠ some intent.operationId.val
  moved : d.resourceVersion ≠ some intent.action.target.resourceVersion.val

/-- **After the patch the effect is never observed** ... -/
theorem Patched.observe_ne (h : Patched intent c d) {o : ActionObservation}
    (ho : (observe a intent c).1 = .ok o) : o.state = .conflict := by
  obtain ⟨d', state, hobserved⟩ := observe_ok ho
  have hsame : d' = d := Option.some.inj (hobserved.found.symm.trans h.found)
  subst hsame
  obtain ⟨-, hversion, hannotations⟩ := deploymentState_ok hobserved.read
  rw [hobserved.state]
  unfold observationState
  rw [if_neg, if_neg]
  · intro hsame
    exact h.moved (hversion.trans (congrArg some hsame))
  · rw [← hannotations]
    exact h.unmarked

/-- A Deployment that is observed in the state before is patched by an execution. -/
theorem execute_patches (hstores : StoresExactly a.api) {o : ActionObservation}
    (hobserved : Observed a intent c o d state) (hbefore : o.state = .before) :
    (execute a intent c).2.writes = c.writes + 1 ∧
      ∃ d', Patched intent (execute a intent c).2 d' := by
  obtain ⟨-, hversion, hannotations⟩ := deploymentState_ok hobserved.read
  have hstate := hobserved.state
  rw [hbefore] at hstate
  unfold observationState at hstate
  split_ifs at hstate with hmarked hsame
  refine Sat.state (I := fun c' => c'.writes = c.writes + 1 ∧ ∃ d', Patched intent c' d') ?_
  have hpatched : ∀ c', c'.writes = c.writes + 1 →
      c'.deployments (targetKey intent) = some (a.api.write (patchOf intent) d) →
      c'.writes = c.writes + 1 ∧ ∃ d', Patched intent c' d' := by
    intro c' hwrites hfound
    refine ⟨hwrites, _, hfound, ?_, ?_⟩
    · rw [write_annotations hstores, hannotations]
      exact hmarked
    · rw [← hsame, ← hversion]
      exact hstores.version _ _
  unfold execute
  refine Sat.check (fun h => absurd hobserved.enabled h) fun _ => ?_
  rw [Exec.sat_bind]
  refine read_found hobserved.found (fun state' hread => ?_) fun e hread => ?_
  · have hstates : state' = state := Except.ok.inj (hread.symm.trans hobserved.read)
    subst hstates
    refine Sat.check (fun h => absurd hobserved.uid h) fun _ => ?_
    rw [if_neg hmarked]
    have htarget : Sat (requireExactTarget intent state') c (fun _ c' => c' = c) (fun _ _ => False) :=
      Sat.check (fun h => absurd hobserved.uid h) fun _ =>
        Exec.sat_require.mpr ⟨fun _ => rfl, fun h => absurd hsame h⟩
    refine Sat.call htarget (fun _ _ h => h.elim) ?_
    rintro - c' rfl
    -- the patch is stored, and what follows does not touch it
    have hstored : Function.update c'.deployments (targetKey intent)
        (some (a.api.write (patchOf intent) d)) (targetKey intent) = _ := Function.update_self _ _ _
    refine Sat.call (@patchDeployment_stores a c' d (patchOf intent) hobserved.found) ?_ ?_
    · rintro e c'' rfl
      exact hpatched _ rfl hstored
    · rintro result c'' rfl
      refine Sat.attempt (fun _ _ => hpatched _ rfl hstored) fun updated _ => ?_
      refine Sat.check (fun _ => hpatched _ rfl hstored) fun _ => receiptFor_kept.mono ?_ ?_
      · intro _ c₃ hkept
        exact hpatched c₃ hkept.writes ((congrFun hkept.deployments _).trans hstored)
      · intro _ c₃ hkept
        exact hpatched c₃ hkept.writes ((congrFun hkept.deployments _).trans hstored)
  · rw [hobserved.read] at hread
    cases hread

/-- **The adapter never recognises its own effect**: not for any intent, nor any cluster. -/
theorem never_recognises (a : Adapter) (hstores : StoresExactly a.api) (intent : ActionIntent)
    (c : Cluster) : ¬Recognises a intent c := by
  intro h
  obtain ⟨o, ho, hbefore⟩ := h.before
  obtain ⟨d, state, hobserved⟩ := observe_ok ho
  obtain ⟨hwrites, d', hpatched⟩ := execute_patches hstores hobserved hbefore
  obtain ⟨⟨o', ho', happlied⟩, -⟩ := h.applied hwrites 0
  rw [hpatched.observe_ne ho'] at happlied
  cases happlied

end Laws

/-! ## A worked case -/

/-- An API that writes what a patch says; every patch appends a character to the resource version. -/
def sampleApi : DeploymentApi where
  write := fun patch d =>
    { d with resourceVersion := some (d.resourceVersion.getD "" ++ "1"),
             annotations := merged patch.annotations d.annotations,
             templateAnnotations := merged patch.templateAnnotations d.templateAnnotations }
  lost := fun _ => none
  notFound := ⟨.keyError, "deployment"⟩

theorem sample_stores : StoresExactly sampleApi := by
  refine ⟨fun _ _ => rfl, fun patch d h => ?_, fun _ _ => rfl, fun _ _ => rfl⟩
  have hversion : some (d.resourceVersion.getD "" ++ "1") = d.resourceVersion := h
  cases hd : d.resourceVersion with
  | none => rw [hd] at hversion; cases hversion
  | some version =>
    rw [hd] at hversion
    have hlength := congrArg (fun v => v.toList.length) (Option.some.inj hversion)
    simp at hlength

def sampleAdapter : Adapter := ⟨sampleApi, fun _ => ⟨10, 0⟩, true⟩

/-- The Deployment the action of the case aims at, in the state before. -/
def sampleDeployment : Deployment :=
  ⟨some "u", some "1", fun _ => none, fun _ => none, some 3, some 1⟩

def sampleCluster : Cluster := ⟨fun key => if key = ("n", "d") then some sampleDeployment else none, 0, 0⟩

def sampleIntent : ActionIntent where
  tenantId := ⟨"t", computed⟩
  runId := ⟨"r", computed⟩
  planId := ⟨"p", computed⟩
  action := soloAction
  planDigest := zeroHash
  approvalDigest := zeroHash
  policyDigest := zeroHash
  operationId := ⟨"o2", computed⟩
  attempt := 1
  fenceToken := ⟨"fence", computed⟩
  requestedAt := ⟨10, 0⟩
  dryRun := false
  attempt_ok := first_attempt

theorem never_recognises_sample : ¬Recognises sampleAdapter sampleIntent sampleCluster :=
  never_recognises sampleAdapter sample_stores sampleIntent sampleCluster

/-- **What the code does.**  Before the patch the state before is observed; the patch is stored and
    accepted; then a conflict is observed, and a second execution is refused. -/
theorem own_effect_conflicts :
    let patched := (execute sampleAdapter sampleIntent sampleCluster).2
    (observe sampleAdapter sampleIntent sampleCluster).1.map (·.state) = .ok .before ∧
    (execute sampleAdapter sampleIntent sampleCluster).1.map (·.outcome) = .ok .succeeded ∧
    patched.writes = 1 ∧
    (observe sampleAdapter sampleIntent patched).1.map (·.state) = .ok .conflict ∧
    (execute sampleAdapter sampleIntent patched).1.map (·.outcome) =
      .error ⟨.effectConflict, "Kubernetes target resourceVersion changed"⟩ ∧
    ¬Recognises sampleAdapter sampleIntent sampleCluster := by
  intro patched
  have hconflict : (observe sampleAdapter sampleIntent patched).1.map (·.state) = .ok .conflict := by
    decide +kernel
  refine ⟨by decide +kernel, by decide +kernel, by decide +kernel, hconflict, by decide +kernel, ?_⟩
  intro h
  obtain ⟨⟨o, ho, happlied⟩, -⟩ := h.applied (by decide +kernel) 0
  have ho' : (observe sampleAdapter sampleIntent patched).1 = .ok o := ho
  rw [ho'] at hconflict
  have hstate : o.state = .conflict := Except.ok.inj hconflict
  rw [hstate] at happlied
  cases happlied

end Kubernetes

end Remediation

end Aegis
