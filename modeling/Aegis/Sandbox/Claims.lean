/-
  THE CLAIMS OF SANDBOX EXECUTIONS.

  `InMemorySandboxClaims` keeps one claim per execution.  Unlike the claims of effects it does not look
  at the attempt of a live holder who asks again: an unexpired claim under the caller's own token is
  WRITTEN ANEW, with a new expiry.  Its worker is an identifier, and the record is validated last, so a
  worker that is none is refused and nothing is written.

  The binding is what `claim` compares: spec, policy and approval digest and the fence.  The request
  digest is stored but not compared.

  `claims_fenced` puts both stores under the laws of `Aegis.Lib.Fencing`.
-/
import Mathlib
import Aegis.Remediation.Fences
import Aegis.Sandbox.Records

namespace Aegis

namespace Sandbox

/-! ## The store -/

structure SandboxClaim where
  requestDigest : Digest
  specDigest : Digest
  policyDigest : Digest
  approvalDigest : Digest
  attempt : Nat
  fenceToken : Identifier
  claimToken : Identifier
  claimUntil : Datetime
  workerRef : Identifier
  resultDigest : Option Digest

/-- `self._claims`. -/
abbrev Claims : Type := String × String → Option SandboxClaim

/-- What a claim and a request must agree on. -/
def SandboxClaim.binding (c : SandboxClaim) : Digest × Digest × Digest × Identifier :=
  (c.specDigest, c.policyDigest, c.approvalDigest, c.fenceToken)

def SandboxExecutionRequest.binding (sha : Sha256) (r : SandboxExecutionRequest) :
    Digest × Digest × Digest × Identifier :=
  (r.spec.specDigest sha, r.policyDigest, r.approvalDigest, r.fenceToken)

def claimTokenOf (sha : Sha256) (request : SandboxExecutionRequest) (workerRef : String) : Identifier :=
  stableIdentifier sha "sandbox-claim"
    [request.tenantId.val, request.executionId.val, workerRef, request.attempt.repr,
      request.fenceToken.val] 40

/-- The record a call writes. -/
def newClaim (sha : Sha256) (request : SandboxExecutionRequest) (workerRef : Identifier)
    (claimUntil : Datetime) : SandboxClaim where
  requestDigest := request.requestDigest sha
  specDigest := request.spec.specDigest sha
  policyDigest := request.policyDigest
  approvalDigest := request.approvalDigest
  attempt := request.attempt
  fenceToken := request.fenceToken
  claimToken := claimTokenOf sha request workerRef.val
  claimUntil
  workerRef
  resultDigest := none

/-- The last lines of `claim`: the record is built, stored and returned. -/
def storeClaim (sha : Sha256) (request : SandboxExecutionRequest) (workerRef : String)
    (claimUntil : Datetime) : Exec Error Claims SandboxClaim := do
  let worker ← Exec.lift (Identifier.parse "worker_ref" workerRef)
  let claimed := newClaim sha request worker claimUntil
  Exec.modify fun s => Function.update s request.key (some claimed)
  pure claimed

/-- `InMemorySandboxClaims.claim`. -/
def claim (sha : Sha256) (request : SandboxExecutionRequest) (workerRef : String)
    (now claimUntil : Datetime) : Exec Error Claims SandboxClaim := do
  Exec.require (now < claimUntil) ⟨.valueError, "sandbox claim expiry must follow claim time"⟩
  let s ← Exec.read
  match s request.key with
  | none => storeClaim sha request workerRef claimUntil
  | some current => do
    Exec.require (current.binding = request.binding sha)
      ⟨.sandboxRejected, "sandbox claim exact binding changed"⟩
    if current.resultDigest.isSome = true then pure current
    else do
      Exec.require (¬(now < current.claimUntil ∧ current.claimToken ≠ claimTokenOf sha request workerRef))
        ⟨.concurrencyConflict, "sandbox execution is actively claimed"⟩
      Exec.require (¬(current.claimUntil ≤ now ∧ request.attempt ≤ current.attempt))
        ⟨.concurrencyConflict, "sandbox retry attempt did not advance"⟩
      storeClaim sha request workerRef claimUntil

/-- `InMemorySandboxClaims.complete`. -/
def complete (result : SandboxResult) (claimToken : String) : Exec Error Claims Unit := do
  let s ← Exec.read
  match s result.key with
  | none => Exec.raise ⟨.concurrencyConflict, "stale sandbox completion rejected"⟩
  | some current => do
    Exec.require (current.claimToken.val = claimToken ∧ current.fenceToken = result.fenceToken
        ∧ current.attempt = result.attempt)
      ⟨.concurrencyConflict, "stale sandbox completion rejected"⟩
    match current.resultDigest with
    | some recorded =>
      Exec.require (recorded = result.resultDigest)
        ⟨.idempotencyConflict, "sandbox result changed on replay"⟩
    | none =>
      Exec.modify fun s =>
        Function.update s result.key (some { current with resultDigest := some result.resultDigest })

/-! ## What a call does -/

variable {sha : Sha256} {s : Claims}

inductive ClaimOutcome (sha : Sha256) (s : Claims) (request : SandboxExecutionRequest)
    (workerRef : String) (now claimUntil : Datetime) : Except Error SandboxClaim × Claims → Prop
  | refused (e : Error) : ClaimOutcome sha s request workerRef now claimUntil (.error e, s)
  | settled (c : SandboxClaim) (hc : s request.key = some c)
    (hsettled : c.resultDigest.isSome = true) :
    ClaimOutcome sha s request workerRef now claimUntil (.ok c, s)
  | fresh (worker : Identifier) (hworker : worker.val = workerRef) (hlive : now < claimUntil)
    (hnone : s request.key = none) :
    ClaimOutcome sha s request workerRef now claimUntil (.ok (newClaim sha request worker claimUntil),
      Function.update s request.key (some (newClaim sha request worker claimUntil)))
  | renewed (worker : Identifier) (hworker : worker.val = workerRef) (hlive : now < claimUntil)
    (c : SandboxClaim) (hc : s request.key = some c) (hbinding : c.binding = request.binding sha)
    (hopen : c.resultDigest = none) (hunexpired : now < c.claimUntil)
    (hown : c.claimToken = claimTokenOf sha request workerRef) :
    ClaimOutcome sha s request workerRef now claimUntil (.ok (newClaim sha request worker claimUntil),
      Function.update s request.key (some (newClaim sha request worker claimUntil)))
  | takenOver (worker : Identifier) (hworker : worker.val = workerRef) (hlive : now < claimUntil)
    (c : SandboxClaim) (hc : s request.key = some c) (hbinding : c.binding = request.binding sha)
    (hopen : c.resultDigest = none) (hexpired : c.claimUntil ≤ now)
    (hattempt : c.attempt < request.attempt) :
    ClaimOutcome sha s request workerRef now claimUntil (.ok (newClaim sha request worker claimUntil),
      Function.update s request.key (some (newClaim sha request worker claimUntil)))

theorem claim_outcome (sha : Sha256) (s : Claims) (request : SandboxExecutionRequest)
    (workerRef : String) (now claimUntil : Datetime) :
    ClaimOutcome sha s request workerRef now claimUntil
      (claim sha request workerRef now claimUntil s) := by
  have hrun : Exec.Sat (claim sha request workerRef now claimUntil) s
      (fun r s' => ClaimOutcome sha s request workerRef now claimUntil (.ok r, s'))
      (fun e s' => ClaimOutcome sha s request workerRef now claimUntil (.error e, s')) := by
    unfold claim
    refine Exec.Sat.check (fun _ => .refused _) (fun hlive => ?_)
    rw [Exec.sat_bind, Exec.sat_read]
    cases hc : s request.key with
    | none =>
      refine Exec.Sat.attempt (fun _ _ => .refused _) (fun worker hworker => ?_)
      exact .fresh worker (Identifier.parse_ok hworker) hlive hc
    | some c =>
      refine Exec.Sat.check (fun _ => .refused _) (fun hbinding => ?_)
      split
      · rename_i hsettled
        exact .settled c hc hsettled
      · rename_i hopen
        have hnone : c.resultDigest = none := by simpa using hopen
        refine Exec.Sat.check (fun _ => .refused _) (fun hmine => ?_)
        refine Exec.Sat.check (fun _ => .refused _) (fun hahead => ?_)
        refine Exec.Sat.attempt (fun _ _ => .refused _) (fun worker hworker => ?_)
        rcases lt_or_ge now.instant c.claimUntil.instant with hunexpired | hexpired
        · refine .renewed worker (Identifier.parse_ok hworker) hlive c hc hbinding hnone hunexpired ?_
          by_contra hother
          exact hmine ⟨hunexpired, hother⟩
        · refine .takenOver worker (Identifier.parse_ok hworker) hlive c hc hbinding hnone hexpired ?_
          by_contra hbehind
          exact hahead ⟨hexpired, not_lt.mp hbehind⟩
  exact hrun.outcome (P := fun r s' => ClaimOutcome sha s request workerRef now claimUntil (r, s'))

/-- A result may be recorded under this token. -/
def SandboxClaim.Admits (c : SandboxClaim) (result : SandboxResult) (claimToken : String) : Prop :=
  c.claimToken.val = claimToken ∧ c.fenceToken = result.fenceToken ∧ c.attempt = result.attempt

inductive CompleteOutcome (s : Claims) (result : SandboxResult) (claimToken : String) :
    Except Error Unit × Claims → Prop
  | refused (e : Error) : CompleteOutcome s result claimToken (.error e, s)
  | repeated (c : SandboxClaim) (hc : s result.key = some c) (hadmits : c.Admits result claimToken)
    (hsettled : c.resultDigest = some result.resultDigest) :
    CompleteOutcome s result claimToken (.ok (), s)
  | recorded (c : SandboxClaim) (hc : s result.key = some c) (hadmits : c.Admits result claimToken)
    (hopen : c.resultDigest = none) :
    CompleteOutcome s result claimToken (.ok (), Function.update s result.key
      (some { c with resultDigest := some result.resultDigest }))

theorem complete_outcome (s : Claims) (result : SandboxResult) (claimToken : String) :
    CompleteOutcome s result claimToken (complete result claimToken s) := by
  have hrun : Exec.Sat (complete result claimToken) s
      (fun r s' => CompleteOutcome s result claimToken (.ok r, s'))
      (fun e s' => CompleteOutcome s result claimToken (.error e, s')) := by
    unfold complete
    rw [Exec.sat_bind, Exec.sat_read]
    cases hc : s result.key with
    | none => exact .refused _
    | some c =>
      refine Exec.Sat.check (fun _ => .refused _) (fun hadmits => ?_)
      cases hr : c.resultDigest with
      | none => exact .recorded c hc hadmits hr
      | some recorded =>
        rw [Exec.sat_require]
        exact ⟨fun hsame => .repeated c hc hadmits (hsame ▸ hr), fun _ => .refused _⟩
  exact hrun.outcome (P := fun r s' => CompleteOutcome s result claimToken (r, s'))

/-! ## As fenced claims -/

inductive ClaimOp where
  | claim (request : SandboxExecutionRequest) (workerRef : String) (now claimUntil : Datetime)
  | complete (result : SandboxResult) (claimToken : String) (now : Datetime)

def ClaimOp.now : ClaimOp → Datetime
  | .claim _ _ now _ => now
  | .complete _ _ now => now

/-- One call: the record of a claim, or nothing. -/
def claimStep (sha : Sha256) (s : Claims) : ClaimOp → Except Error (Option SandboxClaim) × Claims
  | .claim request workerRef now claimUntil =>
    ((claim sha request workerRef now claimUntil s).1.map some,
      (claim sha request workerRef now claimUntil s).2)
  | .complete result claimToken _ =>
    ((complete result claimToken s).1.map fun _ => none, (complete result claimToken s).2)

/-- A claim as its completion sees it. -/
def SandboxClaim.fenced (c : SandboxClaim) :
    Fencing.Claim (Digest × Digest × Digest × Identifier) String String Digest Int :=
  ⟨c.binding, c.fenceToken.val, c.attempt, c.claimToken.val, c.claimUntil.instant, c.resultDigest⟩

def claimsView (s : Claims) : Fencing.Store (String × String)
    (Digest × Digest × Digest × Identifier) String String Digest Int :=
  fun key => (s key).map SandboxClaim.fenced

def ClaimOp.request (sha : Sha256) : ClaimOp → Fencing.Request (String × String) String String
  | .claim request workerRef _ _ =>
    .claim request.key (claimTokenOf sha request workerRef).val request.attempt
  | .complete result claimToken _ =>
    .complete result.key claimToken result.fenceToken.val result.attempt

theorem claimsView_update (s : Claims) (key : String × String) (c : SandboxClaim) :
    claimsView (Function.update s key (some c)) = Function.update (claimsView s) key (some c.fenced) := by
  funext key'
  by_cases hkey : key' = key
  · subst hkey
    simp [claimsView]
  · simp [claimsView, Function.update_of_ne hkey]

theorem claimsView_some {key : String × String} {c : SandboxClaim} (hc : s key = some c) :
    claimsView s key = some c.fenced := by
  rw [claimsView, hc, Option.map_some]

/-- **A call on the claims of executions is a step.** -/
theorem claimStep_step (op : ClaimOp) :
    Fencing.Step op.now.instant (claimsView s) (op.request sha)
      (Remediation.granted (claimStep sha s op).1) (claimsView (claimStep sha s op).2) := by
  cases op with
  | claim request workerRef now claimUntil =>
    rw [claimStep, Remediation.granted_map]
    have hout := claim_outcome sha s request workerRef now claimUntil
    revert hout
    generalize claim sha request workerRef now claimUntil s = out
    intro hout
    cases hout with
    | refused e => exact .refused _
    | settled c hc hsettled => exact .settled c.fenced (claimsView_some hc) hsettled
    | fresh worker hworker hlive hnone =>
      subst hworker
      rw [claimsView_update]
      refine .granted _ rfl rfl rfl hlive ?_
      rw [claimsView, hnone]
      exact .fresh
    | renewed worker hworker hlive c hc hbinding hopen hunexpired hown =>
      subst hworker
      rw [claimsView_update]
      refine .granted _ rfl rfl rfl hlive ?_
      rw [claimsView_some hc]
      exact .renewed _ hopen hbinding.symm
        (congrArg (fun b => b.2.2.2.val) hbinding.symm) hunexpired (congrArg Subtype.val hown)
    | takenOver worker hworker hlive c hc hbinding hopen hexpired hattempt =>
      subst hworker
      rw [claimsView_update]
      refine .granted _ rfl rfl rfl hlive ?_
      rw [claimsView_some hc]
      exact .takenOver _ hopen hbinding.symm
        (congrArg (fun b => b.2.2.2.val) hbinding.symm) hexpired hattempt
  | complete result claimToken now =>
    rw [claimStep, Remediation.granted_map]
    have hout := complete_outcome s result claimToken
    revert hout
    generalize complete result claimToken s = out
    intro hout
    cases hout with
    | refused e => exact .refused _
    | repeated c hc hadmits hsettled =>
      exact .repeated c.fenced ⟨claimsView_some hc, hadmits.1, congrArg Subtype.val hadmits.2.1,
        hadmits.2.2⟩ (by rw [SandboxClaim.fenced, hsettled]; rfl)
    | recorded c hc hadmits hopen =>
      rw [claimsView_update]
      exact .completed c.fenced ⟨claimsView_some hc, hadmits.1, congrArg Subtype.val hadmits.2.1,
        hadmits.2.2⟩ hopen result.resultDigest

/-- A refused call changes nothing. -/
theorem claimStep_refused {op : ClaimOp}
    (h : Remediation.granted (claimStep sha s op).1 = false) : (claimStep sha s op).2 = s := by
  cases op with
  | claim request workerRef now claimUntil =>
    rw [claimStep, Remediation.granted_map] at h
    rw [claimStep]
    have hout := claim_outcome sha s request workerRef now claimUntil
    revert hout h
    generalize claim sha request workerRef now claimUntil s = out
    intro h hout
    cases hout with
    | refused e => rfl
    | settled | fresh | renewed | takenOver => cases h
  | complete result claimToken now =>
    rw [claimStep, Remediation.granted_map] at h
    rw [claimStep]
    have hout := complete_outcome s result claimToken
    revert hout h
    generalize complete result claimToken s = out
    intro h hout
    cases hout with
    | refused e => rfl
    | repeated | recorded => cases h

/-! ## Every history -/

/-- The texts of the tokens the calls ask for. -/
def claimTexts (ops : List ClaimOp) : Set String :=
  {text | ∃ request workerRef now claimUntil, ClaimOp.claim request workerRef now claimUntil ∈ ops ∧
    text = claimText request.key workerRef request.attempt request.fenceToken}

/-- The history of the calls from no claims, as calls on fenced claims. -/
def claimCalls (sha : Sha256) (ops : List ClaimOp) : List (Fencing.Call (String × String)
    (Digest × Digest × Digest × Identifier) String String Digest Int) :=
  (Machine.trace (claimStep sha) (fun _ => none) ops).map
    (Fencing.Call.ofEntry claimsView (fun op => op.now.instant) (ClaimOp.request sha)
      Remediation.granted)

theorem claims_run {ops : List ClaimOp}
    (htimes : (ops.map fun op => op.now.instant).Pairwise (· ≤ ·)) :
    Fencing.Run (ClaimToken sha (claimTexts ops) "sandbox-claim") (claimCalls sha ops)
      (claimsView (Machine.final (claimStep sha) (fun _ => none) ops)) := by
  refine Fencing.Run.ofMachine (s := fun _ => none) claimsView (fun op => op.now.instant)
    (ClaimOp.request sha) Remediation.granted rfl (fun s op _ => claimStep_step op) htimes ?_
  intro op hop
  cases op with
  | claim request workerRef now claimUntil =>
    exact ⟨workerRef, request.fenceToken, ⟨request, workerRef, now, claimUntil, hop, rfl⟩, rfl⟩
  | complete => trivial

/-- **Claims are fenced.**  Whatever is called in whatever order, at times that do not go back: the
    claims of effects and those of executions obey the laws, and a refused call changes nothing. -/
theorem claims_fenced (sha : Sha256) (policies : List Remediation.ActionPolicy) (limits : String → Int)
    (effects : List Remediation.EffectClaimOp) (executions : List ClaimOp)
    (hfree : sha.CollisionFree (Remediation.effectClaimTexts effects))
    (hfree' : sha.CollisionFree (claimTexts executions))
    (htimes : (effects.map fun op => op.now.instant).Pairwise (· ≤ ·))
    (htimes' : (executions.map fun op => op.now.instant).Pairwise (· ≤ ·)) :
    (Fencing.Laws (Remediation.effectClaimCalls sha policies limits effects)
        (Remediation.effectView (Machine.final (Remediation.effectClaimStep sha)
          (Remediation.State.start policies limits) effects)) ∧
      ∀ e ∈ Machine.trace (Remediation.effectClaimStep sha)
          (Remediation.State.start policies limits) effects,
        Remediation.granted e.result = false → e.after = e.before) ∧
    (Fencing.Laws (claimCalls sha executions)
        (claimsView (Machine.final (claimStep sha) (fun _ => none) executions)) ∧
      ∀ e ∈ Machine.trace (claimStep sha) (fun _ => none) executions,
        Remediation.granted e.result = false → e.after = e.before) := by
  refine ⟨⟨?_, fun e he hrefused => ?_⟩, ?_, fun e he hrefused => ?_⟩
  · exact (Remediation.effectClaims_run policies limits htimes).laws
      (ClaimToken.attempt_unique hfree)
  · obtain ⟨xs, ys, -, hentry⟩ := Machine.trace_mem he
    rw [hentry] at hrefused ⊢
    exact Remediation.effectClaimStep_refused hrefused
  · exact (claims_run htimes').laws (ClaimToken.attempt_unique hfree')
  · obtain ⟨xs, ys, -, hentry⟩ := Machine.trace_mem he
    rw [hentry] at hrefused ⊢
    exact claimStep_refused hrefused

/-- An execution claimed by one worker, renewed by him, taken over by another at the next attempt, and
    completed under the token of the first. -/
def sampleClaims (sha : Sha256) : List ClaimOp :=
  [.claim (sampleRequest 1) "w1" ⟨0, 0⟩ ⟨10, 0⟩, .claim (sampleRequest 1) "w1" ⟨5, 0⟩ ⟨15, 0⟩,
    .claim (sampleRequest 2) "w2" ⟨15, 0⟩ ⟨20, 0⟩,
    .complete ⟨⟨"t", computed⟩, ⟨"e", computed⟩, 1, ⟨"f", computed⟩, zeroHash⟩
      (claimTokenOf sha (sampleRequest 1) "w1").val ⟨16, 0⟩]

/-- A hash that tells the tokens of the case apart. -/
def sampleClaimHash : Sha256 :=
  .table [claimText ("t", "o") "w1" 1 ⟨"f", computed⟩, claimText ("t", "o") "w2" 2 ⟨"f", computed⟩,
    claimText ("t", "e") "w1" 1 ⟨"f", computed⟩, claimText ("t", "e") "w2" 2 ⟨"f", computed⟩]

theorem claims_fenced_sample :
    Fencing.Laws
      (claimCalls sampleClaimHash (sampleClaims sampleClaimHash))
      (claimsView (Machine.final (claimStep sampleClaimHash) (fun _ => none)
        (sampleClaims sampleClaimHash))) := by
  refine (claims_fenced sampleClaimHash [] (fun _ => 0) (Remediation.sampleEffectClaims sampleClaimHash)
    (sampleClaims sampleClaimHash) ?_ ?_ (by decide) (by decide)).2.1
  · refine Sha256.table_collisionFree (by decide) "" ?_
    rintro text ⟨intent, worker, now, claimUntil, hop, rfl⟩
    simp only [Remediation.sampleEffectClaims, List.mem_cons, List.not_mem_nil, or_false,
      Remediation.EffectClaimOp.claim.injEq, reduceCtorEq] at hop
    rcases hop with ⟨rfl, rfl, -, -⟩ | ⟨rfl, rfl, -, -⟩
    · exact .inl (by simp [Remediation.ActionIntent.key])
    · exact .inl (by simp [Remediation.ActionIntent.key])
  · refine Sha256.table_collisionFree (by decide) "" ?_
    rintro text ⟨request, worker, now, claimUntil, hop, rfl⟩
    simp only [sampleClaims, List.mem_cons, List.not_mem_nil, or_false, ClaimOp.claim.injEq,
      reduceCtorEq] at hop
    rcases hop with ⟨rfl, rfl, -, -⟩ | ⟨rfl, rfl, -, -⟩ | ⟨rfl, rfl, -, -⟩
    · exact .inl (by simp [SandboxExecutionRequest.key, SandboxExecutionRequest.tenantId, sampleRequest,
        sampleSpec])
    · exact .inl (by simp [SandboxExecutionRequest.key, SandboxExecutionRequest.tenantId, sampleRequest,
        sampleSpec])
    · exact .inl (by simp [SandboxExecutionRequest.key, SandboxExecutionRequest.tenantId, sampleRequest,
        sampleSpec])

end Sandbox

end Aegis
