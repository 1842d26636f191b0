/-
  THE LEDGER OF SANDBOX EXECUTIONS, for any sequence of appends.

  `append` digests a fact it has written by hand, with the time as `isoformat` where `Z` replaces
  `+00:00` EVERYWHERE; the reducer digests the dump of the model.  The two texts are one
  (`utcText_eq_jsonText`): a plus sign can only be the first character of the offset, so what is replaced
  is the offset of UTC or nothing.

  A payload is anything.  Only the first fact of an execution has its texts validated; later ones put
  `str` of whatever they carry into the projection.  `str` of an array or an object is Python's, `reprOf`
  here.

  The ledger is a `FactBook`: `append_answer` says so, and the laws come from `Aegis.Lib.FactBook`.
-/
import Mathlib
import Aegis.Lib.Exec
import Aegis.Lib.FactBook
import Aegis.Lib.Machine
import Aegis.Sandbox.Records

namespace Aegis

namespace Sandbox

/-! ## Facts -/

inductive SandboxFactType where
  | requestRecorded | policyDecided | approvalBound | claimed | provisionRequested | provisioned
  | started | outputCaptureRequested | artifactRecorded | completed | failed | timedOut | oomKilled
  | violation | cancellationRequested | cancelled | attested | cleanupRequested | cleaned
  | quarantined | reconciliationStarted | reconciliationResolved
deriving DecidableEq, Repr

def SandboxFactType.value : SandboxFactType → String
  | .requestRecorded => "sandbox.request_recorded"
  | .policyDecided => "sandbox.policy_decided"
  | .approvalBound => "sandbox.approval_bound"
  | .claimed => "sandbox.claimed"
  | .provisionRequested => "sandbox.provision_requested"
  | .provisioned => "sandbox.provisioned"
  | .started => "sandbox.started"
  | .outputCaptureRequested => "sandbox.output_capture_requested"
  | .artifactRecorded => "sandbox.artifact_recorded"
  | .completed => "sandbox.completed"
  | .failed => "sandbox.failed"
  | .timedOut => "sandbox.timed_out"
  | .oomKilled => "sandbox.oom_killed"
  | .violation => "sandbox.violation"
  | .cancellationRequested => "sandbox.cancellation_requested"
  | .cancelled => "sandbox.cancelled"
  | .attested => "sandbox.attested"
  | .cleanupRequested => "sandbox.cleanup_requested"
  | .cleaned => "sandbox.cleaned"
  | .quarantined => "sandbox.quarantined"
  | .reconciliationStarted => "sandbox.reconciliation_started"
  | .reconciliationResolved => "sandbox.reconciliation_resolved"

theorem SandboxFactType.value_injective : Function.Injective SandboxFactType.value := by
  intro a b
  cases a <;> cases b <;> decide

/-- `_STATUS_BY_FACT`. -/
def statusByFact : SandboxFactType → SandboxStatus
  | .requestRecorded => .requested
  | .policyDecided => .policyApproved
  | .approvalBound => .policyApproved
  | .claimed => .claimed
  | .provisionRequested => .provisioning
  | .provisioned => .provisioning
  | .started => .running
  | .outputCaptureRequested => .capturing
  | .artifactRecorded => .capturing
  | .completed => .completed
  | .failed => .failed
  | .timedOut => .timedOut
  | .oomKilled => .oomKilled
  | .violation => .violation
  | .cancellationRequested => .cancelled
  | .cancelled => .cancelled
  | .attested => .attested
  | .cleanupRequested => .cleaning
  | .cleaned => .cleaned
  | .quarantined => .quarantined
  | .reconciliationStarted => .reconciling
  | .reconciliationResolved => .reconciling

structure SandboxFact where
  tenantId : Identifier
  executionId : Identifier
  sequence : Nat
  factId : Identifier
  factType : SandboxFactType
  commandId : Identifier
  actorRef : Identifier
  recordedAt : Datetime
  payload : Fields
  previousDigest : Digest
  canonicalDigest : Digest
  sequence_ok : 1 ≤ sequence
  payload_ok : payload.entries.length ≤ 32

/-- `fact.model_dump(mode="json", exclude={"canonical_digest"})`. -/
def SandboxFact.modelDump (f : SandboxFact) : Json :=
  .obj [("schema_version", .int 1), ("tenant_id", .str f.tenantId.val),
    ("execution_id", .str f.executionId.val), ("sequence", .int f.sequence),
    ("fact_id", .str f.factId.val), ("fact_type", .str f.factType.value),
    ("command_id", .str f.commandId.val), ("actor_ref", .str f.actorRef.val),
    ("recorded_at", .str f.recordedAt.jsonText), ("payload", f.payload.toJson),
    ("previous_digest", .str f.previousDigest.val)]

/-! ## The time of a fact -/

/-- `text.replace(old, new)`, with as many characters to skip as a replacement has used up. -/
def replaceAll (old new : List Char) : Nat → List Char → List Char
  | _, [] => []
  | n + 1, _ :: cs => replaceAll old new n cs
  | 0, c :: cs =>
    if old.isPrefixOf (c :: cs) then new ++ replaceAll old new (old.length - 1) cs
    else c :: replaceAll old new 0 cs

/-- `recorded_at.isoformat().replace("+00:00", "Z")`. -/
def utcText (d : Datetime) : String :=
  String.ofList (replaceAll ['+', '0', '0', ':', '0', '0'] ['Z'] 0 d.isoformat.toList)

/-- What has no character to start with is left alone. -/
theorem replaceAll_append {first : Char} {rest new xs : List Char} (ys : List Char)
    (h : first ∉ xs) :
    replaceAll (first :: rest) new 0 (xs ++ ys) = xs ++ replaceAll (first :: rest) new 0 ys := by
  induction xs with
  | nil => rfl
  | cons c xs ih =>
    have hne : first ≠ c := fun heq => h (heq ▸ List.mem_cons_self)
    have hno : ¬(first :: rest).isPrefixOf (c :: (xs ++ ys)) = true := by
      intro hprefix
      rw [List.isPrefixOf_cons_cons, Bool.and_eq_true, beq_iff_eq] at hprefix
      exact hne hprefix.1
    show replaceAll (first :: rest) new 0 (c :: (xs ++ ys)) = c :: (xs ++ _)
    rw [replaceAll, if_neg hno, ih fun hmem => h (List.mem_cons_of_mem _ hmem)]

theorem plus_notMem_pad (width n : Nat) : '+' ∉ Datetime.pad width n := by
  intro hmem
  have hdigit := Datetime.pad_isDigit hmem
  revert hdigit
  decide

theorem plus_notMem_naive (time : Int) : '+' ∉ Datetime.naiveText time := by
  have hpad := plus_notMem_pad
  simp only [Datetime.naiveText, Datetime.dateText, Datetime.yearText, Datetime.clockText,
    Datetime.fractionText, List.mem_append, List.mem_cons, not_or]
  refine ⟨⟨?_, by decide, hpad _ _, by decide, hpad _ _⟩, by decide, hpad _ _, by decide, hpad _ _,
    by decide, hpad _ _, ?_⟩
  · split
    · exact List.not_mem_cons_of_ne_of_not_mem (by decide) (hpad _ _)
    · exact hpad _ _
  · split
    · exact List.not_mem_nil
    · exact List.not_mem_cons_of_ne_of_not_mem (by decide) (hpad _ _)

/-- The text of an offset starts as that of UTC only when it is UTC. -/
theorem offset_of_start {offset : Int}
    (h : ['+', '0', '0', ':', '0', '0'].isPrefixOf (Datetime.offsetText offset) = true) :
    offset = 0 := by
  obtain ⟨rest, hrest⟩ := List.isPrefixOf_iff_prefix.mp h
  have hzeros : Datetime.pad 2 0 = ['0', '0'] := by decide
  unfold Datetime.offsetText at hrest
  obtain ⟨hsign, hnumbers⟩ := List.cons.inj hrest
  have hblocks : Datetime.pad 2 0 ++ ':' :: ('0' :: '0' :: rest) =
      Datetime.pad 2 (offset.natAbs / 60) ++ ':' :: Datetime.pad 2 (offset.natAbs % 60) := by
    rw [hzeros]
    exact hnumbers
  obtain ⟨hhours, htail⟩ := Datetime.pad_unique (Datetime.noDigit_cons _ (by decide))
    (Datetime.noDigit_cons _ (by decide)) hblocks
  have hminutes := (List.cons.inj htail).2
  have hzero : ∀ m, m < 60 → (Datetime.pad 2 m).take 2 = ['0', '0'] → m = 0 := by decide
  have hm : offset.natAbs % 60 = 0 :=
    hzero _ (Nat.mod_lt _ (by decide)) (by rw [← hminutes]; rfl)
  omega

/-- **The writer and the model write one time.** -/
theorem utcText_eq_jsonText (d : Datetime) : utcText d = d.jsonText := by
  unfold utcText Datetime.isoformat Datetime.jsonText
  rw [String.toList_ofList, replaceAll_append _ (plus_notMem_naive _)]
  congr 2
  split
  · rename_i hutc
    rw [hutc]
    decide
  · rename_i hother
    have hno : ¬['+', '0', '0', ':', '0', '0'].isPrefixOf (Datetime.offsetText d.offset) = true :=
      fun hprefix => hother (offset_of_start hprefix)
    obtain ⟨sign, numbers, hoffset, hnumbers⟩ : ∃ sign numbers,
        Datetime.offsetText d.offset = sign :: numbers ∧ '+' ∉ numbers := by
      refine ⟨_, _, rfl, ?_⟩
      simp only [List.mem_append, List.mem_cons, not_or]
      exact ⟨plus_notMem_pad _ _, by decide, plus_notMem_pad _ _⟩
    rw [hoffset] at hno ⊢
    rw [replaceAll, if_neg hno]
    have hkept := @replaceAll_append '+' ['0', '0', ':', '0', '0'] ['Z'] numbers [] hnumbers
    rw [List.append_nil] at hkept
    rw [hkept]
    show sign :: (numbers ++ []) = sign :: numbers
    rw [List.append_nil]

/-! ## The projection -/

structure SandboxProjection where
  tenantId : Identifier
  executionId : Identifier
  runId : Identifier
  taskId : Identifier
  status : SandboxStatus
  version : Nat
  requestDigest : Digest
  specDigest : Digest
  policyDigest : Digest
  approvalDigest : Digest
  fenceToken : Identifier
  providerUid : Option String
  resultDigest : Option String
  manifestDigest : Option String
  attestationDigest : Option String
  cleanupComplete : Bool
  lastFactDigest : Digest
  updatedAt : Datetime

/-- `str(value)`; `reprOf` is Python's text of an array or an object. -/
def strOf (reprOf : Json → String) (value : Json) : String := value.pyStr.getD (reprOf value)

/-- `str(payload[key])` validated as an `Identifier`. -/
def identifierField (payload : Fields) (key : String) : Except Error Identifier :=
  match (payload.lookup key).bind Json.identifier? with
  | some i => .ok i
  | none => .error (validationError key)

/-- `str(payload[key])` validated as a digest. -/
def digestField (payload : Fields) (key : String) : Except Error Digest :=
  match (payload.lookup key).bind Json.pyStr with
  | some text =>
    if h : isDigest text = true then .ok ⟨text, h⟩ else .error (validationError key)
  | none => .error (validationError key)

/-- What a first fact must carry. -/
def requiredKeys : List String :=
  ["run_id", "task_id", "request_digest", "spec_digest", "policy_digest", "approval_digest",
    "fence_token"]

/-- `reduce_sandbox` without a projection. -/
def startProjection (fact : SandboxFact) : Except Error SandboxProjection :=
  if ¬(fact.factType = .requestRecorded ∧ fact.sequence = 1) then
    .error ⟨.integrityFailure, "sandbox aggregate must begin with a request"⟩
  else if ¬∀ k ∈ requiredKeys, k ∈ fact.payload then
    .error ⟨.integrityFailure, "sandbox request fact is incomplete"⟩
  else do
    let runId ← identifierField fact.payload "run_id"
    let taskId ← identifierField fact.payload "task_id"
    let requestDigest ← digestField fact.payload "request_digest"
    let specDigest ← digestField fact.payload "spec_digest"
    let policyDigest ← digestField fact.payload "policy_digest"
    let approvalDigest ← digestField fact.payload "approval_digest"
    let fenceToken ← identifierField fact.payload "fence_token"
    .ok { tenantId := fact.tenantId, executionId := fact.executionId, runId, taskId,
          status := .requested, version := 1, requestDigest, specDigest, policyDigest,
          approvalDigest, fenceToken, providerUid := none, resultDigest := none,
          manifestDigest := none, attestationDigest := none, cleanupComplete := false,
          lastFactDigest := fact.canonicalDigest, updatedAt := fact.recordedAt }

/-- A text of the projection, replaced if the payload has the key. -/
def replaced (reprOf : Json → String) (payload : Fields) (key : String) (old : Option String) :
    Option String :=
  match payload.lookup key with
  | some value => some (strOf reprOf value)
  | none => old

/-- The fact follows the projection. -/
def InChain (current : SandboxProjection) (fact : SandboxFact) : Prop :=
  current.tenantId = fact.tenantId ∧ current.executionId = fact.executionId ∧
    fact.sequence = current.version + 1 ∧ fact.previousDigest = current.lastFactDigest

instance (current : SandboxProjection) (fact : SandboxFact) : Decidable (InChain current fact) :=
  inferInstanceAs (Decidable (_ ∧ _ ∧ _ ∧ _))

/-- `reduce_sandbox`. -/
def reduceSandbox (sha : Sha256) (reprOf : Json → String) (current : Option SandboxProjection)
    (fact : SandboxFact) : Except Error SandboxProjection :=
  if fact.canonicalDigest ≠ canonicalDigest sha fact.modelDump then
    .error ⟨.integrityFailure, "sandbox fact digest mismatch"⟩
  else
    match current with
    | none => startProjection fact
    | some current =>
      if ¬InChain current fact then .error ⟨.integrityFailure, "sandbox fact chain is invalid"⟩
      else .ok { current with
        status := statusByFact fact.factType
        version := fact.sequence
        lastFactDigest := fact.canonicalDigest
        updatedAt := fact.recordedAt
        providerUid := replaced reprOf fact.payload "provider_uid" current.providerUid
        resultDigest := replaced reprOf fact.payload "result_digest" current.resultDigest
        manifestDigest := replaced reprOf fact.payload "manifest_digest" current.manifestDigest
        attestationDigest :=
          replaced reprOf fact.payload "attestation_digest" current.attestationDigest
        cleanupComplete := current.cleanupComplete || fact.factType == .cleaned }

/-! ## Appends -/

/-- `self._facts`, `self._commands`, `self._projections`. -/
abbrev LedgerState : Type :=
  FactBook.Book (String × String) (String × String) (String × Digest) SandboxFact SandboxProjection

/-- `_MAX_FACTS`. -/
def maxFacts : Nat := 512

/-- What `append` is asked. -/
structure AppendCall where
  tenantId : String
  executionId : String
  expectedVersion : Int
  factType : SandboxFactType
  commandId : String
  actorRef : String
  recordedAt : Datetime
  payload : Fields

def AppendCall.key (c : AppendCall) : String × String := (c.tenantId, c.executionId)

def AppendCall.command (c : AppendCall) : String × String := (c.tenantId, c.commandId)

/-- What the fingerprint of a command is the digest of. -/
def fingerprintText (factType : SandboxFactType) (payload : Fields) : String :=
  canonicalJson (.obj [("fact_type", .str factType.value), ("payload", payload.toJson)])

def AppendCall.text (c : AppendCall) : String := fingerprintText c.factType c.payload

/-- What the index keeps of a command. -/
def AppendCall.entry (sha : Sha256) (c : AppendCall) : String × Digest :=
  (c.executionId, sha.hexdigest c.text)

/-- The identifier of a fact. -/
def factIdOf (sha : Sha256) (c : AppendCall) (sequence : Nat) : Identifier :=
  stableIdentifier sha "sandbox-fact" [c.tenantId, c.executionId, sequence.repr, c.commandId] 32

/-- The material that the writer digests. -/
def material (sha : Sha256) (c : AppendCall) (sequence : Nat) (previous : Digest) : Json :=
  .obj [("schema_version", .int 1), ("tenant_id", .str c.tenantId),
    ("execution_id", .str c.executionId), ("sequence", .int sequence),
    ("fact_id", .str (factIdOf sha c sequence).val), ("fact_type", .str c.factType.value),
    ("command_id", .str c.commandId), ("actor_ref", .str c.actorRef),
    ("recorded_at", .str (utcText c.recordedAt)), ("payload", c.payload.sorted.toJson),
    ("previous_digest", .str previous.val)]

/-- The fact after `facts`. -/
def buildFact (sha : Sha256) (c : AppendCall) (facts : List SandboxFact) :
    Except Error SandboxFact := do
  let sequence := facts.length + 1
  let previous := HashChain.lastDigest SandboxFact.canonicalDigest zeroHash facts
  let tenantId ← Identifier.parse "SandboxFact.tenant_id" c.tenantId
  let executionId ← Identifier.parse "SandboxFact.execution_id" c.executionId
  let commandId ← Identifier.parse "SandboxFact.command_id" c.commandId
  let actorRef ← Identifier.parse "SandboxFact.actor_ref" c.actorRef
  if hp : c.payload.sorted.entries.length ≤ 32 then
    .ok { tenantId, executionId, sequence, factId := factIdOf sha c sequence,
          factType := c.factType, commandId, actorRef, recordedAt := c.recordedAt,
          payload := c.payload.sorted, previousDigest := previous,
          canonicalDigest := canonicalDigest sha (material sha c sequence previous),
          sequence_ok := Nat.succ_pos _, payload_ok := hp }
  else .error (validationError "SandboxFact.payload")

/-- `InMemorySandboxLedger.append`. -/
def append (sha : Sha256) (reprOf : Json → String) (c : AppendCall) :
    Exec Error LedgerState SandboxProjection := do
  let s ← Exec.read
  match s.commands c.command with
  | some prior => do
    Exec.require (prior = c.entry sha)
      ⟨.idempotencyConflict, "sandbox command replay changed input"⟩
    match s.projections c.key with
    | none => Exec.raise ⟨.keyError, "projection"⟩
    | some projection => pure projection
  | none => do
    Exec.require (((s.facts c.key).length : Int) = c.expectedVersion)
      ⟨.concurrencyConflict, "sandbox aggregate version changed"⟩
    Exec.require ((s.facts c.key).length < maxFacts)
      ⟨.integrityFailure, "sandbox fact bound exceeded"⟩
    let fact ← Exec.lift (buildFact sha c (s.facts c.key))
    let projection ← Exec.lift (reduceSandbox sha reprOf (s.projections c.key) fact)
    Exec.modify fun s => s.record c.key c.command (c.entry sha) fact projection
    pure projection

/-- `InMemorySandboxLedger.rebuild`. -/
def rebuild (sha : Sha256) (reprOf : Json → String) (key : String × String) :
    Exec Error LedgerState SandboxProjection := do
  let s ← Exec.read
  let projection ← Exec.lift ((s.facts key).foldlM
    (fun current fact => (reduceSandbox sha reprOf current fact).map some) none)
  match projection with
  | none => Exec.raise ⟨.integrityFailure, "cannot rebuild an unknown sandbox execution"⟩
  | some projection => pure projection

/-! ## The ledger is a fact book -/

variable {sha : Sha256} {reprOf : Json → String}

/-- Facts of executions, as a fact book has them. -/
def factKind (sha : Sha256) (reprOf : Json → String) :
    FactBook.Kind (String × String) (String × String) (String × Digest) SandboxFact SandboxProjection
      Digest String Error where
  sequence := SandboxFact.sequence
  previous := SandboxFact.previousDigest
  digest := SandboxFact.canonicalDigest
  start := zeroHash
  recompute fact := canonicalDigest sha fact.modelDump
  command key fact := (key.1, fact.commandId.val)
  content _ fact := fingerprintText fact.factType fact.payload
  entry key text := (key.2, sha.hexdigest text)
  reduce _ current fact := reduceSandbox sha reprOf current fact

/-- Equal payloads, whatever the order of their members, have one fingerprint. -/
theorem fingerprintText_same {factType : SandboxFactType} {payload payload' : Fields}
    (h : payload.toJson.Same payload'.toJson) :
    fingerprintText factType payload = fingerprintText factType payload' := by
  refine canonicalJson_inj.mpr ?_
  have hsorted : sortKeys payload.toJson = sortKeys payload'.toJson := h
  show sortKeys (.obj [_, _]) = sortKeys (.obj [_, _])
  simp only [sortKeys, sortKeysFields, hsorted]

/-- The text determines the fact type and the payload. -/
theorem fingerprintText_inj {factType factType' : SandboxFactType} {payload payload' : Fields}
    (h : fingerprintText factType payload = fingerprintText factType' payload') :
    factType = factType' ∧ payload.toJson.Same payload'.toJson := by
  have hsame := canonicalJson_inj.mp h
  have hnodup : (["fact_type", "payload"] : List String).Nodup := by decide
  have htype := hsame.field (k := "fact_type") hnodup (v := .str factType.value)
    (w := .str factType'.value) (by simp) (by simp)
  have hpayload := hsame.field (k := "payload") hnodup (v := payload.toJson) (w := payload'.toJson)
    (by simp) (by simp)
  exact ⟨SandboxFactType.value_injective (Json.same_str.mp htype), hpayload⟩

/-- **What the writer digests is what the reducer digests.** -/
theorem buildFact_ok {c : AppendCall} {facts : List SandboxFact} {fact : SandboxFact}
    (h : buildFact sha c facts = .ok fact) :
    fact.sequence = facts.length + 1 ∧
      fact.previousDigest = HashChain.lastDigest SandboxFact.canonicalDigest zeroHash facts ∧
      fact.canonicalDigest = canonicalDigest sha fact.modelDump ∧ fact.factType = c.factType ∧
      fact.commandId.val = c.commandId ∧ fact.payload = c.payload.sorted := by
  unfold buildFact at h
  dsimp only at h
  obtain ⟨tenantId, htenant, h⟩ := except_bind_ok.mp h
  obtain ⟨executionId, hexecution, h⟩ := except_bind_ok.mp h
  obtain ⟨commandId, hcommand, h⟩ := except_bind_ok.mp h
  obtain ⟨actorRef, hactor, h⟩ := except_bind_ok.mp h
  have htenant := Identifier.parse_ok htenant
  have hexecution := Identifier.parse_ok hexecution
  have hcommand := Identifier.parse_ok hcommand
  have hactor := Identifier.parse_ok hactor
  split at h
  · rw [← Except.ok.inj h]
    refine ⟨rfl, rfl, ?_, rfl, hcommand, rfl⟩
    show canonicalDigest sha (material sha c _ _) = canonicalDigest sha (SandboxFact.modelDump _)
    simp only [material, SandboxFact.modelDump, utcText_eq_jsonText, htenant, hexecution, hcommand,
      hactor]
  · cases h

/-- **An append answers its command.** -/
theorem append_answer (s : LedgerState) (c : AppendCall) :
    FactBook.Answer (factKind sha reprOf) s c.key c.command c.text (append sha reprOf c s) := by
  have hrun : Exec.Sat (append sha reprOf c) s
      (fun p s' => FactBook.Answer (factKind sha reprOf) s c.key c.command c.text (.ok p, s'))
      (fun e s' => FactBook.Answer (factKind sha reprOf) s c.key c.command c.text (.error e, s')) := by
    unfold append
    rw [Exec.sat_bind, Exec.sat_read]
    cases hknown : s.commands c.command with
    | some prior =>
      refine Exec.Sat.check (fun hne => .refused _ fun hsame => ?_) (fun heq => ?_)
      · rw [hknown] at hsame
        exact absurd (Option.some.inj hsame) hne
      · cases hp : s.projections c.key with
        | none => exact .refused _ fun _ => hp
        | some p => exact .replayed p (by rw [hknown, heq]; rfl) hp
    | none =>
      have hrefused : ∀ e, FactBook.Answer (factKind sha reprOf) s c.key c.command c.text
          (.error e, s) := by
        refine fun e => .refused e fun hsame => ?_
        rw [hknown] at hsame
        cases hsame
      refine Exec.Sat.check (fun _ => hrefused _) (fun _ => ?_)
      refine Exec.Sat.check (fun _ => hrefused _) (fun _ => ?_)
      refine Exec.Sat.attempt (fun e _ => hrefused e) (fun fact hfact => ?_)
      refine Exec.Sat.attempt (fun e _ => hrefused e) (fun p hp => ?_)
      obtain ⟨hsequence, hprevious, hdigest, htype, hcommand, hpayload⟩ := buildFact_ok hfact
      refine .recorded fact p ⟨hknown, hsequence, hprevious, hdigest, ?_, ?_, hp⟩
      · exact congrArg (Prod.mk c.tenantId) hcommand
      · show fingerprintText fact.factType fact.payload = fingerprintText c.factType c.payload
        rw [htype, hpayload]
        exact fingerprintText_same (Fields.toJson_sorted c.payload)
  exact hrun.outcome (P := fun r s' => FactBook.Answer (factKind sha reprOf) s c.key c.command
    c.text (r, s'))

/-- An execution whose projection is stored is rebuilt to it, and nothing changes. -/
theorem rebuild_stored {s : LedgerState} (h : FactBook.Laws (factKind sha reprOf) s)
    {key : String × String} {p : SandboxProjection} (hp : s.projections key = some p) :
    rebuild sha reprOf key s = (.ok p, s) := by
  have hreplay : (s.facts key).foldlM
      (fun current fact => (reduceSandbox sha reprOf current fact).map some) none = .ok (some p) :=
    h.rebuilt hp
  show Exec.andThen (Exec.lift ((s.facts key).foldlM
    (fun current fact => (reduceSandbox sha reprOf current fact).map some) none)) _ s = _
  rw [hreplay]
  rfl

/-! ## Sequences of appends -/

/-- The state after a sequence of appends. -/
def appendAll (sha : Sha256) (reprOf : Json → String) (calls : List AppendCall) : LedgerState :=
  Machine.final (fun s c => append sha reprOf c s) .empty calls

/-- The history of a sequence of appends. -/
def appendHistory (sha : Sha256) (reprOf : Json → String) (calls : List AppendCall) :
    List (Machine.Entry LedgerState AppendCall (Except Error SandboxProjection)) :=
  Machine.trace (fun s c => append sha reprOf c s) .empty calls

theorem appendAll_laws (calls : List AppendCall) :
    FactBook.Laws (factKind sha reprOf) (appendAll sha reprOf calls) :=
  Machine.run_invariant_all (I := fun s => FactBook.Laws (factKind sha reprOf) s)
    (fun s c h => h.answered (append_answer s c)) _ .empty calls

/-- The command is repeated, with the content it had. -/
def SameContent (c : AppendCall) (executionId : String) (fact : SandboxFact) : Prop :=
  executionId = c.executionId ∧ fact.factType = c.factType ∧ fact.payload.toJson.Same c.payload.toJson

/-- What an append answers to a command that a fact has already. -/
structure RepeatLaw (e : Machine.Entry LedgerState AppendCall (Except Error SandboxProjection)) :
    Prop where
  same : ∀ executionId, ∀ fact ∈ e.before.facts (e.op.tenantId, executionId),
    fact.commandId.val = e.op.commandId → SameContent e.op executionId fact →
    ∃ p, e.before.projections e.op.key = some p ∧ e.result = .ok p ∧ e.after = e.before
  other : ∀ executionId, ∀ fact ∈ e.before.facts (e.op.tenantId, executionId),
    fact.commandId.val = e.op.commandId → ¬SameContent e.op executionId fact →
    ∃ error, e.result = .error error ∧ e.after = e.before

/-- Every call of a history is one of `calls`, from a state with the laws whose facts `calls` asked for. -/
theorem history_laws {calls : List AppendCall}
    {e : Machine.Entry LedgerState AppendCall (Except Error SandboxProjection)}
    (he : e ∈ appendHistory sha reprOf calls) :
    e.op ∈ calls ∧ e = Machine.entry (fun s c => append sha reprOf c s) e.before e.op ∧
      FactBook.Laws (factKind sha reprOf) e.before ∧
      FactBook.Asked (factKind sha reprOf) (fun _ text => ∃ c ∈ calls, text = c.text) e.before := by
  obtain ⟨xs, ys, hcalls, hentry⟩ := Machine.trace_mem he
  have hbefore : e.before = appendAll sha reprOf xs := congrArg Machine.Entry.before hentry
  refine ⟨by rw [hcalls]; simp, by rw [hbefore]; exact hentry, hbefore ▸ appendAll_laws xs, ?_⟩
  rw [hbefore]
  refine Machine.run_invariant (C := fun _ c => c ∈ calls)
    (fun s c h hc => h.answered ⟨c, hc, rfl⟩ (append_answer s c)) xs _
    (fun _ _ hfact => absurd hfact List.not_mem_nil) (fun e' he' => ?_)
  obtain ⟨xs', ys', hxs, -⟩ := Machine.trace_mem he'
  rw [hcalls, hxs]
  simp

/-- **Repeated commands.** -/
theorem repeatLaw_of_history {calls : List AppendCall}
    (hfree : sha.CollisionFree {x | ∃ c ∈ calls, x = c.text})
    {e : Machine.Entry LedgerState AppendCall (Except Error SandboxProjection)}
    (he : e ∈ appendHistory sha reprOf calls) : RepeatLaw e := by
  obtain ⟨hop, hentry, hlaws, hasked⟩ := history_laws he
  have hanswer := @append_answer sha reprOf e.before e.op
  have hresult : append sha reprOf e.op e.before = (e.result, e.after) := by
    rw [hentry]
    rfl
  rw [hresult] at hanswer
  constructor
  · rintro executionId fact hfact hcommand ⟨rfl, htype, hpayload⟩
    obtain ⟨p, hp, hout⟩ := hlaws.answer_same hfact (congrArg (Prod.mk e.op.tenantId) hcommand)
      (by
        show fingerprintText fact.factType fact.payload = e.op.text
        rw [htype]
        exact fingerprintText_same hpayload) hanswer
    exact ⟨p, hp, congrArg Prod.fst hout, congrArg Prod.snd hout⟩
  · intro executionId fact hfact hcommand hother
    obtain ⟨error, hout⟩ := hlaws.answer_other hfact (congrArg (Prod.mk e.op.tenantId) hcommand)
      (by
        intro hsame
        obtain ⟨hexecution, hdigest⟩ := Prod.mk.inj hsame
        -- one digest, so one text
        have htext := hfree.hexdigest (hasked _ fact hfact) ⟨e.op, hop, rfl⟩ hdigest
        exact hother ⟨hexecution, fingerprintText_inj htext⟩) hanswer
    exact ⟨error, congrArg Prod.fst hout, congrArg Prod.snd hout⟩

/-- A failing append changes nothing. -/
theorem failed_append {calls : List AppendCall}
    {e : Machine.Entry LedgerState AppendCall (Except Error SandboxProjection)}
    (he : e ∈ appendHistory sha reprOf calls) {error : Error} (herror : e.result = .error error) :
    e.after = e.before := by
  obtain ⟨-, hentry, -⟩ := history_laws he
  have hanswer := @append_answer sha reprOf e.before e.op
  have hresult : append sha reprOf e.op e.before = (e.result, e.after) := by
    rw [hentry]
    rfl
  rw [hresult] at hanswer
  exact hanswer.error herror

end Sandbox

end Aegis
