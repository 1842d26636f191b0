/-
  THE MODEL GATEWAY: one structured call under a tenant's policy, and what it is billed for.

  `generate` finds the routes that the policy admits, reserves the largest cost that the call may have, and
  then tries the routes in order, each at most `1 + repair_attempts` times.  Each attempt is recorded before
  its provider is asked and reconciled after.

  Whatever is asked of the world (the clock, cancellation, the policy and the catalog, the providers) is
  answered by the moment: the policy of a tenant may be replaced while a provider is at work.  `invoked` keeps
  what the providers were asked and which usage they reported; nothing reads it.
-/
import Mathlib
import Aegis.Lib.Exec
import Aegis.Model.Prices

namespace Aegis

namespace Model

open Exec (Sat)

/-! ## The world -/

/-- What asking a provider came to: a result, a typed error, or any other exception. -/
inductive Answer where
  | result (result : ProviderResult)
  | failed (error : InvocationError)
  | raised

/-- The parts of the world that a call asks, by the moment of the question. -/
structure Ports where
  clock : Nat → Datetime
  cancelled : Nat → Bool
  currentPolicy : Nat → Identifier → Option TenantModelPolicy
  catalogEntry : Nat → Identifier → String → Option ModelCatalogEntry
  invoke : Nat → ModelCatalogEntry → ModelRequest → Answer

/-- The arguments of `ModelGateway` and the cost limits of its store. -/
structure Config where
  adapters : List ModelProvider
  rateLimit : Nat
  circuitThreshold : Nat
  circuitSeconds : Nat
  costLimits : Identifier → Nat
  rate_ok : 1 ≤ rateLimit ∧ rateLimit ≤ 100000

/-- The fields of `InMemoryModelControlStore` that calls write. -/
structure Store where
  reservations : List ModelReservation
  records : List ModelCallRecord
  finalized : Identifier × Identifier → Option Bool

/-- A provider was asked, and reported its usage if it answered. -/
structure Invocation where
  entry : ModelCatalogEntry
  usage : Option ModelUsage

structure World where
  store : Store
  rateWindows : Identifier → List Datetime
  circuitFailures : Identifier × String → Nat
  circuitOpened : Identifier × String → Option Datetime
  available : Nat
  tick : Nat
  invoked : List Invocation

abbrev Gateway (α : Type) : Type := Exec Failure World α

variable (sha : Sha256) (ports : Ports) (config : Config)

/-- The moment of the next question. -/
def moment : Gateway Nat := do
  let w ← Exec.read
  Exec.modify fun w => { w with tick := w.tick + 1 }
  pure w.tick

def now : Gateway Datetime := do
  let n ← moment
  pure (ports.clock n)

def isCancelled : Gateway Bool := do
  let n ← moment
  pure (ports.cancelled n)

def currentPolicy (tenantId : Identifier) : Gateway (Option TenantModelPolicy) := do
  let n ← moment
  pure (ports.currentPolicy n tenantId)

def catalogEntry (tenantId : Identifier) (key : String) : Gateway (Option ModelCatalogEntry) := do
  let n ← moment
  pure (ports.catalogEntry n tenantId key)

def raiseInvocation {α : Type} (code : ModelErrorCode) (retryable : Bool)
    (billing : BillingDisposition) : Gateway α := Exec.raise (.invocation ⟨code, retryable, billing⟩)

/-- `raise PolicyDenied(message)` unless the condition holds. -/
def permit (c : Prop) [Decidable c] (message : String) : Gateway Unit :=
  Exec.require c (.other ⟨.policyDenied, message⟩)

/-! ## The store -/

namespace Store

/-- `_consumed_cost`: what was billed, once the call is over and nothing about it is ambiguous. -/
def consumedCost (s : Store) (reservation : ModelReservation) : Nat :=
  if s.finalized (reservation.tenantId, reservation.reservationId) = some false then
    ((s.records.filter fun r => decide (r.tenantId = reservation.tenantId ∧
      r.callId = reservation.reservationId ∧ r.billing = .billed)).map
        fun r => r.costMicrounits.getD 0).sum
  else reservation.reservedCostMicrounits

/-- What `finalize` notes: whether the billing of an attempt is still ambiguous. -/
def ambiguous (s : Store) (tenantId callId : Identifier) : Bool :=
  s.records.any fun r => decide (r.tenantId = tenantId ∧ r.callId = callId ∧ r.billing = .ambiguous)

end Store

def modifyStore (f : Store → Store) : Gateway Unit := Exec.modify fun w => { w with store := f w.store }

/-- `reserve`, under the moment `time`. -/
def reserve (request : ModelRequest) (policy : TenantModelPolicy)
    (maximumInputTokens maximumCost : Nat) (time : Datetime) : Gateway ModelReservation := do
  let w ← Exec.read
  match w.store.reservations.find? fun r =>
      decide (r.tenantId = request.binding.tenantId ∧ r.reservationId = request.binding.callId) with
  | some existing => do
    permit (existing.requestedInputTokens = maximumInputTokens ∧
        existing.requestedOutputTokens = request.maxOutputTokens ∧
        existing.policyId = policy.policyId ∧ existing.policyRevision = policy.revision ∧
        existing.policyDigest = policy.digest sha)
      "model reservation parameters changed"
    pure existing
  | none => do
    permit (maximumCost ≤ policy.maximumCostMicrounits) "model call exceeds policy cost ceiling"
    permit (((w.store.reservations.filter fun r => decide (r.tenantId = request.binding.tenantId)).map
        w.store.consumedCost).sum + maximumCost ≤ config.costLimits request.binding.tenantId)
      "tenant model budget exhausted"
    permit ((w.store.reservations.filter fun r => decide (r.tenantId = request.binding.tenantId ∧
        r.runId = request.binding.runId)).length < policy.maximumCallsPerRun)
      "model run call limit exhausted"
    let reservation : ModelReservation :=
      { tenantId := request.binding.tenantId, runId := request.binding.runId,
        reservationId := request.binding.callId, requestedInputTokens := maximumInputTokens,
        requestedOutputTokens := request.maxOutputTokens, reservedCostMicrounits := maximumCost,
        policyId := policy.policyId, policyRevision := policy.revision, policyDigest := policy.digest sha,
        createdAt := time }
    modifyStore fun s => { s with reservations := s.reservations ++ [reservation] }
    pure reservation

/-- `append_requested`. -/
def appendRequested (reservation : ModelReservation) (request : ModelRequest)
    (entry : ModelCatalogEntry) (attemptId : String) (time : Datetime) : Gateway Unit := do
  let w ← Exec.read
  match w.store.records.find? fun r =>
      decide (r.tenantId = request.binding.tenantId ∧ r.attemptId = attemptId) with
  | some existing => do
    permit (existing.requestDigest = request.digest sha)
      "model attempt id was reused with different input"
    permit False "model attempt already has durable intent; reconcile before retry"
  | none =>
    modifyStore fun s => { s with records := s.records ++ [
      { tenantId := request.binding.tenantId, runId := request.binding.runId,
        callId := request.binding.callId, attemptId := attemptId,
        requestDigest := request.digest sha, catalogKey := entry.key,
        priceVersion := entry.price.version, policyRevision := reservation.policyRevision,
        requestedAt := time, completedAt := none, outcome := "requested", billing := .ambiguous,
        usage := none, costMicrounits := none, errorCode := none }] }

/-- What `reconcile` writes into a record. -/
structure Settlement where
  outcome : String
  billing : BillingDisposition
  usage : Option ModelUsage
  cost : Option Nat
  errorCode : Option ModelErrorCode

def ModelCallRecord.settled (record : ModelCallRecord) (settlement : Settlement) (time : Datetime) :
    ModelCallRecord :=
  { record with
    completedAt := some time, outcome := settlement.outcome, billing := settlement.billing,
    usage := settlement.usage, costMicrounits := settlement.cost, errorCode := settlement.errorCode }

/-- The store with the record of an attempt settled. -/
def Store.settle (s : Store) (tenantId : Identifier) (attemptId : String) (settlement : Settlement)
    (time : Datetime) : Store :=
  { s with records := s.records.map fun r =>
      if r.tenantId = tenantId ∧ r.attemptId = attemptId then r.settled settlement time else r }

/-- The store after a settled call turned out otherwise. -/
def Store.refinalize (s : Store) (tenantId callId : Identifier) : Store :=
  { s with finalized := fun key =>
      if key = (tenantId, callId) ∧ (s.finalized key).isSome then some (s.ambiguous tenantId callId)
      else s.finalized key }

/-- `reconcile`. -/
def reconcile (tenantId : Identifier) (attemptId : String) (settlement : Settlement)
    (time : Datetime) : Gateway Unit := do
  Exec.require (settlement.billing = .billed → settlement.usage.isSome ∧ settlement.cost.isSome)
    (.other ⟨.integrityFailure, "billed model outcome requires usage and cost"⟩)
  let w ← Exec.read
  match w.store.records.find? fun r =>
      decide (r.tenantId = tenantId ∧ r.attemptId = attemptId) with
  | none => permit False "model attempt intent is unavailable"
  | some current =>
    if current.completedAt = none then
      modifyStore fun s => s.settle tenantId attemptId settlement time
    else if current.billing = .ambiguous ∧ settlement.billing ≠ .ambiguous then
      modifyStore fun s =>
        (s.settle tenantId attemptId settlement time).refinalize tenantId current.callId
    else pure ()

/-- `finalize`. -/
def finalize (reservation : ModelReservation) : Gateway Unit := do
  let _ ← now ports
  modifyStore fun s =>
    if (s.finalized (reservation.tenantId, reservation.reservationId)).isSome then s
    else { s with
      finalized := Function.update s.finalized (reservation.tenantId, reservation.reservationId)
        (some (s.ambiguous reservation.tenantId reservation.reservationId)) }

/-! ## Rates and circuits -/

/-- `timedelta(minutes=1)`, in microseconds. -/
def minute : Int := 60 * 1000000

/-- `_check_rate`. -/
def checkRate (tenantId : Identifier) : Gateway Unit := do
  let time ← now ports
  let w ← Exec.read
  let window := (w.rateWindows tenantId).dropWhile fun t => decide (t.instant ≤ time.instant - minute)
  Exec.modify fun w => { w with rateWindows := Function.update w.rateWindows tenantId window }
  if config.rateLimit ≤ window.length then raiseInvocation .rateLimited true .notBilled
  else Exec.modify fun w =>
    { w with rateWindows := Function.update w.rateWindows tenantId (window ++ [time]) }

/-- `_circuit_is_open`. -/
def circuitIsOpen (tenantId : Identifier) (key : String) : Gateway Bool := do
  let w ← Exec.read
  match w.circuitOpened (tenantId, key) with
  | none => pure false
  | some opened => do
    let time ← now ports
    if config.circuitSeconds * 1000000 ≤ time.instant - opened.instant then do
      Exec.modify fun w => { w with
        circuitOpened := Function.update w.circuitOpened (tenantId, key) none
        circuitFailures := Function.update w.circuitFailures (tenantId, key) 0 }
      pure false
    else pure true

/-- The circuit of a route opens at the threshold. -/
def openCircuit (tenantId : Identifier) (key : String) : Gateway Unit := do
  let time ← now ports
  Exec.modify fun w =>
    { w with circuitOpened := Function.update w.circuitOpened (tenantId, key) (some time) }

/-- `_mark_failure`. -/
def markFailure (tenantId : Identifier) (key : String) : Gateway Unit := do
  Exec.modify fun w => { w with
    circuitFailures :=
      Function.update w.circuitFailures (tenantId, key) (w.circuitFailures (tenantId, key) + 1) }
  let w ← Exec.read
  if config.circuitThreshold ≤ w.circuitFailures (tenantId, key) then
    openCircuit ports tenantId key
  else pure ()

/-- `_mark_success`. -/
def markSuccess (tenantId : Identifier) (key : String) : Gateway Unit :=
  Exec.modify fun w => { w with
    circuitFailures := Function.update w.circuitFailures (tenantId, key) 0
    circuitOpened := Function.update w.circuitOpened (tenantId, key) none }

/-! ## Admission -/

/-- The checks of `_require_policy` on a policy that there is. -/
def admits (request : ModelRequest) (policy : TenantModelPolicy) : Gateway Unit := do
  permit (request.binding.purpose ∈ policy.allowedPurposes) "model purpose is not allowed"
  permit (request.binding.dataClassification ∈ policy.allowedDataClassifications)
    "model data classification is not allowed"
  permit (riskOrder request.binding.risk ≤ riskOrder policy.riskCeiling) "model risk exceeds policy"
  permit (request.maxOutputTokens ≤ policy.maximumOutputTokens)
    "model output token request exceeds policy"
  permit ((∀ name ∈ request.allowedToolNames, name ∈ request.tools.map fun t => t.name) ∧
      ∀ tool ∈ request.tools, tool.name ∈ request.allowedToolNames)
    "model tool allowlist does not match definitions"
  permit (∀ message ∈ request.messages, message.role ≠ .tool)
    "tool result messages are not supported by these adapters"

/-- `_require_policy`. -/
def requirePolicy (request : ModelRequest) : Gateway TenantModelPolicy := do
  let policy ← currentPolicy ports request.binding.tenantId
  match policy with
  | none => Exec.raise (.other ⟨.policyDenied, "no tenant model policy"⟩)
  | some policy => do
    admits request policy
    pure policy

/-- The capabilities that a route must have. -/
def required (request : ModelRequest) (policy : TenantModelPolicy) : List ModelCapability :=
  policy.requiredCapabilities ++ [.jsonSchema] ++ if request.tools = [] then [] else [.tools]

/-- A catalog entry serves a route of the request. -/
def Eligible (request : ModelRequest) (policy : TenantModelPolicy) (route : ModelRoute)
    (entry : ModelCatalogEntry) : Prop :=
  entry.tenantId = request.binding.tenantId ∧ entry.key = route.catalogKey ∧ entry.enabled = true ∧
    entry.provider ∈ policy.allowedProviders ∧ entry.model ∈ policy.allowedModels ∧
    entry.region ∈ policy.allowedRegions ∧
    (∀ capability ∈ required request policy, capability ∈ entry.capabilities) ∧
    conservativeTokens request + request.maxOutputTokens ≤ entry.contextTokens ∧
    request.maxOutputTokens ≤ entry.maximumOutputTokens

instance (request : ModelRequest) (policy : TenantModelPolicy) (route : ModelRoute)
    (entry : ModelCatalogEntry) : Decidable (Eligible request policy route entry) :=
  inferInstanceAs (Decidable (_ ∧ _))

/-- The entries of the routes that are eligible. -/
def entriesOf (request : ModelRequest) (policy : TenantModelPolicy) :
    List ModelRoute → Gateway (List ModelCatalogEntry)
  | [] => pure []
  | route :: routes => do
    let entry ← catalogEntry ports request.binding.tenantId route.catalogKey
    let entries ← entriesOf request policy routes
    pure ((entry.filter fun e => decide (Eligible request policy route e)).toList ++ entries)

/-- `_eligible_entries`. -/
def eligibleEntries (request : ModelRequest) (policy : TenantModelPolicy) :
    Gateway (List ModelCatalogEntry) := do
  permit (conservativeTokens request ≤ policy.maximumInputTokens)
    "model input token estimate exceeds policy"
  let entries ← entriesOf ports request policy policy.routes
  permit (entries ≠ []) "no policy-eligible model route"
  pure entries

/-- The entries whose circuit is closed. -/
def closedEntries (tenantId : Identifier) : List ModelCatalogEntry → Gateway (List ModelCatalogEntry)
  | [] => pure []
  | entry :: entries => do
    let isOpen ← circuitIsOpen ports config tenantId entry.key
    let closed ← closedEntries tenantId entries
    pure (if isOpen = true then closed else entry :: closed)

/-- What the call may cost at most: the dearest of its routes, at every attempt. -/
def maximumCost (request : ModelRequest) (policy : TenantModelPolicy)
    (entries : List ModelCatalogEntry) : Nat :=
  ((entries.map fun e => e.price.maximumCostMicrounits (conservativeTokens request)
      request.maxOutputTokens).foldr max 0) * entries.length * (1 + policy.repairAttempts)

/-- What a call goes by once it is admitted. -/
structure Plan where
  policy : TenantModelPolicy
  entries : List ModelCatalogEntry
  reservation : ModelReservation

/-- The first half of `_generate_admitted`, up to the reservation. -/
def admitRequest (request : ModelRequest) : Gateway Plan := do
  let policy ← requirePolicy ports request
  let eligible ← eligibleEntries ports request policy
  let entries ← closedEntries ports config request.binding.tenantId eligible
  Exec.require (entries ≠ []) (.invocation ⟨.circuitOpen, true, .notBilled⟩)
  checkRate ports config request.binding.tenantId
  let time ← now ports
  let reservation ← reserve sha config request policy (conservativeTokens request)
    (maximumCost request policy entries) time
  pure { policy := policy, entries := entries, reservation := reservation }

/-! ## Attempts -/

/-- The policy is no longer the one of the reservation. -/
def Replaced (reservation : ModelReservation) (policy : Option TenantModelPolicy) : Prop :=
  ∀ p ∈ policy, ¬(p.policyId = reservation.policyId ∧ p.revision = reservation.policyRevision ∧
    p.digest sha = reservation.policyDigest)

instance (reservation : ModelReservation) (policy : Option TenantModelPolicy) :
    Decidable (Replaced sha reservation policy) := by
  cases policy with
  | none => exact .isTrue (fun _ h => by cases h)
  | some p =>
    exact decidable_of_iff (¬(p.policyId = reservation.policyId ∧
        p.revision = reservation.policyRevision ∧ p.digest sha = reservation.policyDigest))
      ⟨fun h _ hp => by cases hp; exact h, fun h => h p rfl⟩

/-- `CANCELLED` or `POLICY_DENIED`, whichever it is. -/
def interruption : Gateway ModelErrorCode := do
  let cancelled ← isCancelled ports
  pure (if cancelled = true then .cancelled else .policyDenied)

/-- The code with which a call is given up: its policy was replaced, or it was cancelled. -/
def interrupted (request : ModelRequest) (reservation : ModelReservation) :
    Gateway (Option ModelErrorCode) := do
  let policy ← currentPolicy ports request.binding.tenantId
  if Replaced sha reservation policy then some <$> interruption ports
  else do
    let cancelled ← isCancelled ports
    if cancelled = true then some <$> interruption ports else pure none

/-- `_invoke`. -/
def invoke (request : ModelRequest) (entry : ModelCatalogEntry) : Gateway ProviderResult :=
  if entry.provider ∉ config.adapters then raiseInvocation .unavailable false .notBilled
  else do
    let n ← moment
    match ports.invoke n entry request with
    | .result result => do
      Exec.modify fun w => { w with invoked := w.invoked ++ [⟨entry, some result.usage⟩] }
      pure result
    | .failed error => do
      Exec.modify fun w => { w with invoked := w.invoked ++ [⟨entry, none⟩] }
      Exec.raise (.invocation error)
    | .raised => do
      Exec.modify fun w => { w with invoked := w.invoked ++ [⟨entry, none⟩] }
      raiseInvocation .unavailable false .ambiguous

/-- `_record_failure`. -/
def recordFailure (tenantId : Identifier) (attemptId : String) (error : InvocationError)
    (entry : ModelCatalogEntry) (usage : Option ModelUsage) : Gateway Unit := do
  let time ← now ports
  reconcile tenantId attemptId
    { outcome := "failed", billing := error.billing, usage := usage,
      cost := usage.map entry.price.actualCostMicrounits, errorCode := some error.code } time

/-- The usage an attempt may report. -/
def Passes (request : ModelRequest) (reservation : ModelReservation) (usage : ModelUsage) : Prop :=
  usage.outputTokens ≤ request.maxOutputTokens ∧
    usage.inputTokens + usage.cacheReadTokens + usage.cacheWriteTokens
      ≤ reservation.requestedInputTokens

instance (request : ModelRequest) (reservation : ModelReservation) (usage : ModelUsage) :
    Decidable (Passes request reservation usage) := inferInstanceAs (Decidable (_ ∧ _))

/-- The checks of a result, inside the `try`. -/
def inspect (request : ModelRequest) (reservation : ModelReservation) (entry : ModelCatalogEntry)
    (attemptId : String) (result : ProviderResult) : Gateway Unit := do
  let stale ← interrupted sha ports request reservation
  match stale with
  | some code => do
    let time ← now ports
    reconcile request.binding.tenantId attemptId
      { outcome := "stale", billing := .billed, usage := some result.usage,
        cost := some (entry.price.actualCostMicrounits result.usage), errorCode := some code } time
    raiseInvocation code false .billed
  | none => do
    Exec.require (Passes request reservation result.usage ∧
        result.usage.totalTokens ≤ entry.contextTokens ∧
        entry.price.actualCostMicrounits result.usage ≤ reservation.reservedCostMicrounits)
      (.invocation ⟨.usageExceeded, false, .billed⟩)
    Exec.require (result.blocked = false) (.invocation ⟨.contentFilter, false, .billed⟩)
    Exec.require (result.finishReason = .stop) (.invocation ⟨.capability, false, .billed⟩)

/-- The codes that count against a circuit and lead to the next route. -/
def passing : List ModelErrorCode := [.rateLimited, .timeout, .transient, .unavailable]

/-- What an attempt leads to: another one on its route, the next route, or the result. -/
inductive Next (α : Type) where
  | repair (error : InvocationError)
  | route (error : InvocationError)
  | done (value : α)

/-- `finalize` and raise. -/
def giveUp {α : Type} (reservation : ModelReservation) (error : InvocationError) : Gateway α := do
  finalize ports reservation
  Exec.raise (.invocation error)

/-- `if error.code in {...}: self._mark_failure(...)`. -/
def markTransient (tenantId : Identifier) (key : String) (error : InvocationError) : Gateway Unit :=
  if error.code ∈ passing then markFailure ports config tenantId key else pure ()

/-- `except ProviderInvocationError`. -/
def onFailure {α : Type} (request : ModelRequest) (plan : Plan) (entry : ModelCatalogEntry)
    (attemptId : String) (error : InvocationError) (usage : Option ModelUsage) :
    Gateway (Next α) := do
  recordFailure ports request.binding.tenantId attemptId error entry usage
  markTransient ports config request.binding.tenantId entry.key error
  if error.billing = .ambiguous ∧ plan.policy.fallbackOnAmbiguousBilling = false then
    giveUp ports plan.reservation error
  else if error.retryable = false ∨ error.code ∉ passing then giveUp ports plan.reservation error
  else pure (.route error)

/-- `except ValidationError`. -/
def onMalformed {α : Type} (request : ModelRequest) (plan : Plan) (entry : ModelCatalogEntry)
    (attemptId : String) (repairIndex : Nat) (usage : ModelUsage) : Gateway (Next α) := do
  let error : InvocationError :=
    ⟨.malformedResponse, decide (repairIndex + 1 < 1 + plan.policy.repairAttempts), .billed⟩
  recordFailure ports request.binding.tenantId attemptId error entry (some usage)
  if error.retryable = true then pure (.repair error) else giveUp ports plan.reservation error

/-- The end of an attempt that succeeded. -/
def complete {α : Type} (request : ModelRequest) (plan : Plan) (entry : ModelCatalogEntry)
    (attemptId : String) (usage : ModelUsage) (parsed : α) : Gateway (Next α) := do
  let time ← now ports
  reconcile request.binding.tenantId attemptId
    { outcome := "completed", billing := .billed, usage := some usage,
      cost := some (entry.price.actualCostMicrounits usage), errorCode := none } time
  markSuccess request.binding.tenantId entry.key
  finalize ports plan.reservation
  pure (.done parsed)

/-- `f"{call_id}:r{route_index}:a{repair_index + 1}"`. -/
def attemptName (request : ModelRequest) (routeIndex repairIndex : Nat) : String :=
  request.binding.callId.val ++ ":r" ++ routeIndex.repr ++ ":a" ++ (repairIndex + 1).repr

/-- An attempt once its intent is stored. -/
def perform {α : Type} (parse : Fields → Option α) (request : ModelRequest) (plan : Plan)
    (entry : ModelCatalogEntry) (attemptId : String) (repairIndex : Nat) : Gateway (Next α) := do
  let invoked ← Exec.reify (invoke ports config request entry)
  match invoked with
  | .error (.invocation error) => onFailure ports config request plan entry attemptId error none
  | .error error => Exec.raise error
  | .ok result => do
    let inspected ← Exec.reify (inspect sha ports request plan.reservation entry attemptId result)
    match inspected with
    | .error (.invocation error) =>
      onFailure ports config request plan entry attemptId error (some result.usage)
    | .error error => Exec.raise error
    | .ok () =>
      match parse result.structuredOutput with
      | none => onMalformed ports request plan entry attemptId repairIndex result.usage
      | some parsed => complete ports request plan entry attemptId result.usage parsed

/-- The body of the inner loop. -/
def attempt {α : Type} (parse : Fields → Option α) (request : ModelRequest) (plan : Plan)
    (entry : ModelCatalogEntry) (routeIndex repairIndex : Nat) : Gateway (Next α) := do
  let stale ← interrupted sha ports request plan.reservation
  match stale with
  | some code => giveUp ports plan.reservation ⟨code, false, .notBilled⟩
  | none => do
    let time ← now ports
    appendRequested sha plan.reservation request entry (attemptName request routeIndex repairIndex) time
    perform sha ports config parse request plan entry (attemptName request routeIndex repairIndex)
      repairIndex

/-- The attempts at one route: the result, or the last failure. -/
def repairs {α : Type} (parse : Fields → Option α) (request : ModelRequest) (plan : Plan)
    (entry : ModelCatalogEntry) (routeIndex : Nat) (failure : Option InvocationError) :
    Nat → Nat → Gateway (Except (Option InvocationError) α)
  | 0, _ => pure (.error failure)
  | left + 1, repairIndex => do
    let next ← attempt sha ports config parse request plan entry routeIndex repairIndex
    match next with
    | .repair error => repairs parse request plan entry routeIndex (some error) left (repairIndex + 1)
    | .route error => pure (.error (some error))
    | .done value => pure (.ok value)

/-- The routes, in order. -/
def routes {α : Type} (parse : Fields → Option α) (request : ModelRequest) (plan : Plan) :
    Option InvocationError → Nat → List ModelCatalogEntry → Gateway α
  | failure, _, [] =>
    giveUp ports plan.reservation (failure.getD ⟨.unavailable, false, .notBilled⟩)
  | failure, routeIndex, entry :: entries => do
    let cancelled ← isCancelled ports
    if cancelled = true then giveUp ports plan.reservation ⟨.cancelled, false, .notBilled⟩
    else do
      let tried ← repairs sha ports config parse request plan entry routeIndex failure
        (1 + plan.policy.repairAttempts) 0
      match tried with
      | .ok value => pure value
      | .error failure => routes parse request plan failure (routeIndex + 1) entries

/-- `_generate_admitted`. -/
def generateAdmitted {α : Type} (parse : Fields → Option α) (request : ModelRequest) : Gateway α := do
  let plan ← admitRequest sha ports config request
  routes sha ports config parse request plan none 1 plan.entries

/-- The semaphore of the gateway is given back. -/
def release (w : World) : World := { w with available := w.available + 1 }

/-- `generate`. -/
def generate {α : Type} (parse : Fields → Option α) (request : ModelRequest) : Gateway α := do
  let cancelled ← isCancelled ports
  if cancelled = true then raiseInvocation .cancelled false .notBilled
  else do
    let w ← Exec.read
    if w.available = 0 then raiseInvocation .rateLimited true .notBilled
    else do
      Exec.modify fun w => { w with available := w.available - 1 }
      let outcome ← Exec.reify (generateAdmitted sha ports config parse request)
      Exec.modify release
      Exec.lift outcome

end Model

end Aegis
