/-
  THE APPLICATION LEDGER OF INVOCATIONS, with the quota and the circuit breaker beside it.

  `append` runs in one critical section.  A new command is recorded as a fact, with the next projection
  of its operation, when the projection has the next VERSION; a command that is known records nothing,
  and is refused unless its projection would still be the next one.  So an operation's projection moves
  only from one version to the next, whoever writes it (`append_outcome`).
-/
import Mathlib
import Aegis.Lib.Exec
import Aegis.Interop.Contracts

namespace Aegis

namespace Interop

open Exec (Sat)

/-! ## Facts and projections -/

inductive InteroperabilityFactType where
  | trustRegistered | trustReviewed | trustQuarantined | trustRevoked
  | invocationRequested | invocationClaimed | invocationSucceeded | invocationFailed
  | invocationAmbiguous | invocationReconciled | taskCancelRequested | taskCancelled
  | artifactAccepted | artifactQuarantined | proposalSubmitted
deriving DecidableEq, Repr

def InteroperabilityFactType.value : InteroperabilityFactType → String
  | .trustRegistered => "interop.trust_registered"
  | .trustReviewed => "interop.trust_reviewed"
  | .trustQuarantined => "interop.trust_quarantined"
  | .trustRevoked => "interop.trust_revoked"
  | .invocationRequested => "interop.invocation_requested"
  | .invocationClaimed => "interop.invocation_claimed"
  | .invocationSucceeded => "interop.invocation_succeeded"
  | .invocationFailed => "interop.invocation_failed"
  | .invocationAmbiguous => "interop.invocation_ambiguous"
  | .invocationReconciled => "interop.invocation_reconciled"
  | .taskCancelRequested => "interop.task_cancel_requested"
  | .taskCancelled => "interop.task_cancelled"
  | .artifactAccepted => "interop.artifact_accepted"
  | .artifactQuarantined => "interop.artifact_quarantined"
  | .proposalSubmitted => "interop.proposal_submitted"

structure InteroperabilityFact where
  factId : Identifier
  operationId : Identifier
  sequence : Nat
  factType : InteroperabilityFactType
  commandRef : Identifier
  actorRef : Identifier
  peerId : Identifier
  payload : List (String × Json)
  previousDigest : Digest
  factDigest : Digest
  recordedAt : Datetime

structure InvocationProjection where
  operationId : Identifier
  tenantRef : OpaqueReference
  peerId : Identifier
  protocol : ProtocolKind
  capabilityId : Identifier
  risk : RiskLevel
  state : InvocationState
  version : Nat
  requestDigest : Digest
  trustDigest : Digest
  policyDigest : Digest
  trustRevision : Nat
  fenceToken : Identifier
  cursorDigest : Option Digest
  resultDigest : Option Digest
  errorCode : Option Identifier
  ambiguous : Bool
  cancellationRequested : Bool
  updatedAt : Datetime

def InvocationProjection.modelDump (p : InvocationProjection) : Json :=
  .obj [("operation_id", .str p.operationId.val), ("tenant_ref", .str p.tenantRef.val),
    ("peer_id", .str p.peerId.val), ("protocol", .str p.protocol.value),
    ("capability_id", .str p.capabilityId.val), ("risk", .str (riskValue p.risk)),
    ("state", .str p.state.value), ("version", .int p.version),
    ("request_digest", .str p.requestDigest.val), ("trust_digest", .str p.trustDigest.val),
    ("policy_digest", .str p.policyDigest.val), ("trust_revision", .int p.trustRevision),
    ("fence_token", .str p.fenceToken.val), ("cursor_digest", optionalText Subtype.val p.cursorDigest),
    ("result_digest", optionalText Subtype.val p.resultDigest),
    ("error_code", optionalText Subtype.val p.errorCode), ("ambiguous", .bool p.ambiguous),
    ("cancellation_requested", .bool p.cancellationRequested),
    ("updated_at", .str p.updatedAt.jsonText)]

/-! ## The stores -/

/-- The ledger, the quota, the circuit breaker, and how often somebody has been asked something. -/
structure State where
  facts : String → List InteroperabilityFact
  commands : String → Option (String × Digest)
  projections : String → Option InvocationProjection
  usage : String → Nat × Int
  reservations : String → Option (String × Int)
  failures : String → Nat
  openedAt : String → Option Nat
  tick : Nat

/-- Nothing has happened yet. -/
def State.init : State :=
  ⟨fun _ => [], fun _ => none, fun _ => none, fun _ => (0, 0), fun _ => none, fun _ => 0, fun _ => none, 0⟩

abbrev GatewayAction (α : Type) : Type := Exec Failure State α

/-! ## Payloads -/

/-- `_FORBIDDEN_LEDGER_KEYS`. -/
def forbiddenLedgerKeys : List String :=
  ["actor_id", "completion", "content", "credential", "evidence_locator", "message", "prompt", "raw",
    "request_id", "secret", "subject_id", "tenant_id", "text", "token", "url"]

/-- `_SAFE_LEDGER_TOKEN_KEYS`. -/
def safeLedgerTokenKeys : List String := ["fence_token", "idempotency_key_digest", "token_id_digest"]

/-- A key under which raw protocol content would be stored. -/
def rawKey (key : String) : Bool :=
  let normalized := key.toLower
  normalized ∈ forbiddenLedgerKeys ||
    (["credential", "evidence_locator", "prompt", "secret", "token"].any fun token =>
      decide (token.toList <:+: normalized.toList)) && normalized ∉ safeLedgerTokenKeys

/-- `reject_raw_ledger_payload`. -/
def rejectRawLedgerPayload (texts : Texts) : List (String × Json) → Except Failure Unit
  | [] => .ok ()
  | (key, value) :: payload =>
    if rawKey key = true then
      .error ⟨.integrityFailure, "raw protocol content is forbidden in the application ledger"⟩
    else do
      boundJson texts 0 value
      rejectRawLedgerPayload texts payload

/-! ## Appending -/

/-- The arguments of `append`. -/
structure AppendCall where
  operationId : String
  factType : InteroperabilityFactType
  commandRef : String
  actorRef : Identifier
  peerId : String
  payload : List (String × Json)
  recordedAt : Datetime
  projection : Option InvocationProjection

/-- The material of a fact, its time as `recorded_at`. -/
def factMaterial (c : AppendCall) (previous : Digest) (sequence : Nat) (recordedAt : String) : Json :=
  .obj [("actor_ref", .str c.actorRef.val), ("command_ref", .str c.commandRef),
    ("fact_id", .str ("interop-fact-" ++ c.operationId ++ "-" ++ toString sequence)),
    ("fact_type", .str c.factType.value), ("operation_id", .str c.operationId),
    ("payload", .obj c.payload), ("peer_id", .str c.peerId), ("previous_digest", .str previous.val),
    ("recorded_at", .str recordedAt), ("schema_version", .int 1), ("sequence", .int sequence)]

/-- The digest of the last fact. -/
def previousDigest (facts : List InteroperabilityFact) : Digest :=
  facts.getLast?.elim zeroHash (·.factDigest)

variable (sha : Sha256) (texts : Texts)

/-- The fact that `append` builds.  Its digest is taken over the time in UTC, and checked over the time
    as the model dumps it. -/
def buildFact (c : AppendCall) (facts : List InteroperabilityFact) :
    Except Failure InteroperabilityFact := do
  let previous := previousDigest facts
  let sequence := facts.length + 1
  let digest ← digestValue sha texts (factMaterial c previous sequence c.recordedAt.utc.jsonText)
  let factId ← parseIdentifier "InteroperabilityFact.fact_id"
    ("interop-fact-" ++ c.operationId ++ "-" ++ toString sequence)
  let operationId ← parseIdentifier "InteroperabilityFact.operation_id" c.operationId
  let commandRef ← parseIdentifier "InteroperabilityFact.command_ref" c.commandRef
  let peerId ← parseIdentifier "InteroperabilityFact.peer_id" c.peerId
  if 128 < sequence then .error ⟨.validationError, "InteroperabilityFact.sequence"⟩
  else if 32 < c.payload.length then .error ⟨.validationError, "InteroperabilityFact.payload"⟩
  else do
    let dumped ← digestValue sha texts (factMaterial c previous sequence c.recordedAt.jsonText)
    if dumped ≠ digest then .error ⟨.validationError, "interoperability fact digest is invalid"⟩
    else .ok { factId, operationId, sequence, factType := c.factType, commandRef,
               actorRef := c.actorRef, peerId, payload := c.payload, previousDigest := previous,
               factDigest := digest, recordedAt := c.recordedAt }

/-- The version that the next projection of an operation must have. -/
def State.nextVersion (s : State) (operationId : String) : Nat :=
  (s.projections operationId).elim 1 (·.version + 1)

/-- The ledger with the fact. -/
def State.record (s : State) (c : AppendCall) (fact : InteroperabilityFact) (payloadDigest : Digest) :
    State :=
  { s with
    facts := Function.update s.facts c.operationId (s.facts c.operationId ++ [fact])
    commands := Function.update s.commands c.commandRef (some (c.operationId, payloadDigest))
    projections := c.projection.elim s.projections fun p =>
      Function.update s.projections c.operationId (some p) }

/-- `append`. -/
def append (c : AppendCall) : GatewayAction InteroperabilityFact := do
  Exec.lift (rejectRawLedgerPayload texts c.payload)
  let payloadDigest ← Exec.lift (digestValue sha texts (.obj c.payload))
  let s ← Exec.read
  match s.commands c.commandRef with
  | some existing => do
    Exec.require (existing = (c.operationId, payloadDigest))
      ⟨.idempotencyConflict, "interoperability command conflicts with an existing fact"⟩
    Exec.require (∀ p ∈ c.projection, ∃ current ∈ s.projections c.operationId,
        p.version = current.version + 1)
      ⟨.concurrencyConflict, "duplicate interoperability claim is stale"⟩
    match (s.facts c.operationId).find? fun f => f.commandRef.val = c.commandRef with
    | some fact => pure fact
    | none => Exec.raise ⟨.other, "StopIteration"⟩
  | none => do
    let fact ← Exec.lift (buildFact sha texts c (s.facts c.operationId))
    Exec.require (∀ p ∈ c.projection, p.version = s.nextVersion c.operationId)
      ⟨.concurrencyConflict, "interoperability projection version is stale"⟩
    Exec.modify fun s => s.record c fact payloadDigest
    pure fact

variable {sha texts}

/-- What an append comes to. -/
inductive AppendOutcome (sha : Sha256) (texts : Texts) (s : State) (c : AppendCall) :
    Except Failure InteroperabilityFact × State → Prop
  | recorded (fact : InteroperabilityFact) (payloadDigest : Digest)
    (hnew : s.commands c.commandRef = none)
    (hfact : buildFact sha texts c (s.facts c.operationId) = .ok fact)
    (hversion : ∀ p ∈ c.projection, p.version = s.nextVersion c.operationId) :
    AppendOutcome sha texts s c (.ok fact, s.record c fact payloadDigest)
  | known (fact : InteroperabilityFact) (hmem : fact ∈ s.facts c.operationId)
    (hcommand : fact.commandRef.val = c.commandRef)
    (hversion : ∀ p ∈ c.projection, ∃ current ∈ s.projections c.operationId,
      p.version = current.version + 1) :
    AppendOutcome sha texts s c (.ok fact, s)
  | refused (e : Failure) : AppendOutcome sha texts s c (.error e, s)

theorem append_outcome (sha : Sha256) (texts : Texts) (s : State) (c : AppendCall) :
    AppendOutcome sha texts s c (append sha texts c s) := by
  have hrun : Sat (append sha texts c) s (fun f s' => AppendOutcome sha texts s c (.ok f, s'))
      (fun e s' => AppendOutcome sha texts s c (.error e, s')) := by
    unfold append
    refine Sat.attempt (fun e _ => .refused e) fun _ _ => ?_
    refine Sat.attempt (fun e _ => .refused e) fun payloadDigest _ => ?_
    rw [Exec.sat_bind, Exec.sat_read]
    cases hcommand : s.commands c.commandRef with
    | some existing =>
      refine Sat.check (fun _ => .refused _) fun _ => ?_
      refine Sat.check (fun _ => .refused _) fun hversion => ?_
      cases hfind : (s.facts c.operationId).find? fun f => f.commandRef.val = c.commandRef with
      | none => exact .refused _
      | some fact =>
        have hsame := List.find?_some (p := fun f : InteroperabilityFact =>
          decide (f.commandRef.val = c.commandRef)) hfind
        exact .known fact (List.mem_of_find?_eq_some hfind) (of_decide_eq_true hsame) hversion
    | none =>
      refine Sat.attempt (fun e _ => .refused e) fun fact hfact => ?_
      refine Sat.check (fun _ => .refused _) fun hversion => ?_
      exact .recorded fact payloadDigest hcommand hfact hversion
  exact hrun.outcome (P := fun r s' => AppendOutcome sha texts s c (r, s'))

/-- A new command with a well-formed fact and the next version is recorded. -/
theorem append_records {s : State} {c : AppendCall} {payloadDigest : Digest}
    {fact : InteroperabilityFact} (hraw : rejectRawLedgerPayload texts c.payload = .ok ())
    (hdigest : digestValue sha texts (.obj c.payload) = .ok payloadDigest)
    (hnew : s.commands c.commandRef = none)
    (hfact : buildFact sha texts c (s.facts c.operationId) = .ok fact)
    (hversion : ∀ p ∈ c.projection, p.version = s.nextVersion c.operationId) :
    append sha texts c s = (.ok fact, s.record c fact payloadDigest) := by
  have hrun : Sat (append sha texts c) s
      (fun f s' => (.ok f : Except Failure _) = .ok fact ∧ s' = s.record c fact payloadDigest)
      (fun e s' => .error e = (.ok fact : Except Failure _) ∧ s' = s.record c fact payloadDigest) := by
    unfold append
    refine Sat.attempt (fun e he => by rw [hraw] at he; cases he) fun _ _ => ?_
    refine Sat.attempt (fun e he => by rw [hdigest] at he; cases he) fun d hd => ?_
    rw [Exec.sat_bind, Exec.sat_read, hnew]
    refine Sat.attempt (fun e he => by rw [hfact] at he; cases he) fun f hf => ?_
    refine Sat.check (fun hno => absurd hversion hno) fun _ => ?_
    rw [hfact] at hf
    rw [hdigest] at hd
    cases hf
    cases hd
    exact ⟨rfl, rfl⟩
  have hout := hrun.outcome (P := fun r s' => r = .ok fact ∧ s' = s.record c fact payloadDigest)
  exact Prod.ext hout.1 hout.2

/-- The fact has the arguments of its append. -/
theorem buildFact_fields {c : AppendCall} {facts : List InteroperabilityFact}
    {fact : InteroperabilityFact} (h : buildFact sha texts c facts = .ok fact) :
    fact.factType = c.factType ∧ fact.commandRef.val = c.commandRef ∧
      fact.operationId.val = c.operationId := by
  unfold buildFact at h
  obtain ⟨digest, -, h⟩ := except_bind_ok.mp h
  obtain ⟨factId, -, h⟩ := except_bind_ok.mp h
  obtain ⟨operationId, hoperation, h⟩ := except_bind_ok.mp h
  obtain ⟨commandRef, hcommand, h⟩ := except_bind_ok.mp h
  obtain ⟨peerId, -, h⟩ := except_bind_ok.mp h
  split at h
  · cases h
  split at h
  · cases h
  obtain ⟨dumped, -, h⟩ := except_bind_ok.mp h
  split at h
  · cases h
  cases h
  exact ⟨rfl, parseIdentifier_ok hcommand, parseIdentifier_ok hoperation⟩

/-! ## The quota -/

/-- The limits of a deployment. -/
structure Limits where
  requestLimit : Nat
  costLimit : Int
  failureThreshold : Nat

/-- `InvocationQuota.reserve`. -/
def reserve (limits : Limits) (tenantRef reservationId : String) (costUnits : Int) :
    GatewayAction Unit := do
  Exec.require (0 ≤ costUnits) ⟨.valueError, "cost reservation cannot be negative"⟩
  let s ← Exec.read
  match s.reservations reservationId with
  | some existing =>
    Exec.require (existing = (tenantRef, costUnits))
      ⟨.idempotencyConflict, "quota reservation conflicts"⟩
  | none => do
    let (requests, cost) := s.usage tenantRef
    Exec.require (requests + 1 ≤ limits.requestLimit ∧ cost + costUnits ≤ limits.costLimit)
      ⟨.policyDenied, "interoperability quota is exhausted"⟩
    Exec.modify fun s => { s with
      usage := Function.update s.usage tenantRef (requests + 1, cost + costUnits)
      reservations := Function.update s.reservations reservationId (some (tenantRef, costUnits)) }

/-! ## The circuit breaker -/

/-- `CircuitBreaker.allow`; `cooled opened now` says whether the cooldown lies between two readings of
    the clock, each known by its place in the run. -/
def allow (limits : Limits) (cooled : Nat → Nat → Bool) (peerId : String) : GatewayAction Bool := do
  let s ← Exec.read
  if s.failures peerId < limits.failureThreshold then pure true
  else do
    Exec.modify fun s => { s with tick := s.tick + 1 }
    if ∃ opened ∈ s.openedAt peerId, cooled opened s.tick = true then do
      Exec.modify fun s => { s with
        failures := Function.update s.failures peerId (limits.failureThreshold - 1)
        openedAt := Function.update s.openedAt peerId none }
      pure true
    else pure false

/-- `CircuitBreaker.record`. -/
def recordCircuit (limits : Limits) (peerId : String) (success : Bool) : GatewayAction Unit :=
  Exec.modify fun s =>
    if success = true then
      { s with failures := Function.update s.failures peerId 0
               openedAt := Function.update s.openedAt peerId none }
    else
      let failures := s.failures peerId + 1
      { s with failures := Function.update s.failures peerId failures
               openedAt :=
                 if limits.failureThreshold ≤ failures ∧ s.openedAt peerId = none then
                   Function.update s.openedAt peerId (some s.tick)
                 else s.openedAt
               tick := s.tick + 1 }

end Interop

end Aegis
