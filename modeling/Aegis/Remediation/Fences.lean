/-
  THE CLAIMS OF EFFECTS AS FENCED CLAIMS.

  `InMemoryEffectClaims` alone, called by anyone in any order: `claim` for any intent and worker,
  `complete` under any text for a token.  Every call is a step of `Fencing.Step` on the claims as a
  completion sees them (`effectView`), so the laws of `Aegis.Lib.Fencing` hold of every history.

  A token is a hash of the key, the worker, the attempt and the fence.  The worker is any text, NUL
  included, but attempt and fence come after it and hold no NUL: read from the END the joined text
  still determines the attempt (`claimText_attempt`).
-/
import Mathlib
import Aegis.Lib.Fencing
import Aegis.Remediation.Approvals
import Aegis.Remediation.Claims

namespace Aegis

/-! ## Tokens -/

/-- The text a claim token is the hash of. -/
def claimText (key : String × String) (worker : String) (attempt : Nat) (fence : Identifier) :
    String :=
  joinParts [key.1, key.2, worker, attempt.repr, fence.val]

/-- The last separator splits a text in one way. -/
theorem last_split {a b x y : List Char} (hx : nul ∉ x) (hy : nul ∉ y)
    (h : a ++ nul :: x = b ++ nul :: y) : a = b ∧ x = y := by
  rcases List.append_eq_append_iff.mp h with ⟨c, rfl, hc⟩ | ⟨c, rfl, hc⟩
  · cases c with
    | nil => simpa using hc
    | cons d c =>
      obtain ⟨rfl, hrest⟩ := List.cons.inj hc
      exact absurd (by rw [hrest]; simp) hx
  · cases c with
    | nil => simpa [eq_comm] using hc
    | cons d c =>
      obtain ⟨rfl, hrest⟩ := List.cons.inj hc
      exact absurd (by rw [hrest]; simp) hy

/-- **The text of a token determines the attempt**, whatever the worker. -/
theorem claimText_attempt {key : String × String} {worker worker' : String} {attempt attempt' : Nat}
    {fence fence' : Identifier}
    (h : claimText key worker attempt fence = claimText key worker' attempt' fence') :
    attempt = attempt' := by
  have hparts : ∀ (a b w x f : String), (joinParts [a, b, w, x, f]).toList =
      ((a.toList ++ nul :: b.toList ++ nul :: w.toList) ++ nul :: x.toList) ++ nul :: f.toList := by
    intro a b w x f
    simp [joinParts, List.intercalate, List.intersperse]
  have hlist := congrArg String.toList h
  rw [claimText, claimText, hparts, hparts] at hlist
  -- the fence is what follows the last NUL, the attempt what follows the one before it
  have hfence := last_split fence.nulFree fence'.nulFree hlist
  have hattempt := last_split (nulFree_repr attempt) (nulFree_repr attempt') hfence.1
  exact Nat.repr_injective (String.toList_inj.mp hattempt.2)

/-- `token` is a token of this kind, of a claim under `key` for `attempt`, whose text is in `texts`. -/
def ClaimToken (sha : Sha256) (texts : Set String) (kind : String) (key : String × String)
    (token : String) (attempt : Nat) : Prop :=
  ∃ worker fence, claimText key worker attempt fence ∈ texts ∧
    token = stableId sha kind [key.1, key.2, worker, attempt.repr, fence.val] 40

/-- A token stands for one attempt. -/
theorem ClaimToken.attempt_unique {sha : Sha256} {texts : Set String} (hfree : sha.CollisionFree texts)
    {kind : String} (key : String × String) (token : String) (a b : Nat)
    (ha : ClaimToken sha texts kind key token a) (hb : ClaimToken sha texts kind key token b) :
    a = b := by
  obtain ⟨worker, fence, hmem, rfl⟩ := ha
  obtain ⟨worker', fence', hmem', heq⟩ := hb
  exact claimText_attempt (hfree 40 (by decide) hmem hmem' (stableId_digits heq))

namespace Remediation

/-! ## Calls on the claims -/

inductive EffectClaimOp where
  | claim (intent : ActionIntent) (workerRef : String) (now claimUntil : Datetime)
  | complete (receipt : ActionReceipt) (claimToken : String) (now : Datetime)

def EffectClaimOp.now : EffectClaimOp → Datetime
  | .claim _ _ now _ => now
  | .complete _ _ now => now

/-- `complete` under a text that is no identifier, so not the token of any claim. -/
def completeEffectText (sha : Sha256) (receipt : ActionReceipt) (claimToken : String) : Action Unit :=
  if h : isIdentifier claimToken = true then completeEffect sha receipt ⟨claimToken, h⟩
  else Exec.raise ⟨.concurrencyConflict, "stale effect claim completion rejected"⟩

/-- One call: the record of a claim, or nothing. -/
def effectClaimStep (sha : Sha256) (s : State) :
    EffectClaimOp → Except Error (Option EffectClaimRecord) × State
  | .claim intent workerRef now claimUntil =>
    ((claimEffect sha intent workerRef now claimUntil s).1.map some,
      (claimEffect sha intent workerRef now claimUntil s).2)
  | .complete receipt claimToken _ =>
    ((completeEffectText sha receipt claimToken s).1.map fun _ => none,
      (completeEffectText sha receipt claimToken s).2)

/-! ## As fenced claims -/

/-- A claim as its completion sees it. -/
def EffectClaim.fenced (c : EffectClaim) :
    Fencing.Claim (Digest × Digest × Digest × Digest × Digest × Identifier) String String ActionReceipt
      Int :=
  ⟨c.binding, c.fenceToken.val, c.attempt, c.claimToken.val, c.claimUntil.instant, c.receipt⟩

def effectView (s : State) : Fencing.Store (String × String)
    (Digest × Digest × Digest × Digest × Digest × Identifier) String String ActionReceipt Int :=
  fun key => (s.claims key).map EffectClaim.fenced

def EffectClaimOp.request (sha : Sha256) : EffectClaimOp → Fencing.Request (String × String) String String
  | .claim intent workerRef _ _ =>
    .claim intent.key (claimTokenOf sha intent workerRef).val intent.attempt
  | .complete receipt claimToken _ =>
    .complete (receipt.tenantId.val, receipt.operationId.val) claimToken receipt.fenceToken.val
      receipt.attempt

def granted {ε α : Type} : Except ε α → Bool
  | .ok _ => true
  | .error _ => false

theorem effectView_setClaim (s : State) (key : String × String) (c : EffectClaim) :
    effectView (s.setClaim key c) = Function.update (effectView s) key (some c.fenced) := by
  funext key'
  by_cases hkey : key' = key
  · subst hkey
    simp [effectView, State.setClaim]
  · simp [effectView, State.setClaim, Function.update_of_ne hkey]

theorem effectView_some {s : State} {key : String × String} {c : EffectClaim}
    (hc : s.claims key = some c) : effectView s key = some c.fenced := by
  rw [effectView, hc, Option.map_some]

variable {sha : Sha256} {s : State}

/-- **A claim of an effect is a step.** -/
theorem claim_step (intent : ActionIntent) (workerRef : String) (now claimUntil : Datetime) :
    Fencing.Step now.instant (effectView s)
      (EffectClaimOp.request sha (.claim intent workerRef now claimUntil))
      (granted (claimEffect sha intent workerRef now claimUntil s).1)
      (effectView (claimEffect sha intent workerRef now claimUntil s).2) := by
  have hout := claim_outcome sha s intent workerRef now claimUntil
  have hlive : ∀ r, (claimEffect sha intent workerRef now claimUntil s).1 = .ok r → now < claimUntil := by
    intro r hr
    by_contra hpast
    rw [claimEffect, Exec.require_neg hpast] at hr
    cases hr
  revert hout hlive
  generalize claimEffect sha intent workerRef now claimUntil s = out
  intro hout hlive
  cases hout with
  | refused e => exact .refused _
  | settled c hc hbinding r hr =>
    exact .settled c.fenced (effectView_some hc) (by rw [EffectClaim.fenced, hr]; rfl)
  | held c hc hbinding hheld =>
    exact .held c.fenced (effectView_some hc) hheld.open_ hheld.unexpired
      (congrArg Subtype.val hheld.own)
  | fresh hnone =>
    rw [effectView_setClaim]
    refine .granted _ rfl rfl rfl (hlive _ rfl) ?_
    rw [effectView, hnone]
    exact .fresh
  | renewed c hc hbinding hopen hexpired hattempt =>
    rw [effectView_setClaim]
    refine .granted _ rfl rfl hopen (hlive _ rfl) ?_
    rw [effectView_some hc]
    exact .takenOver _ hopen rfl rfl hexpired hattempt

/-- A completion that is let through names the stored claim, its fence too. -/
theorem completeEffect_fence {receipt : ActionReceipt} {claimToken : Identifier} {s' : State}
    (h : completeEffect sha receipt claimToken s = (.ok (), s')) {c : EffectClaim}
    (hc : s.claims (receipt.tenantId.val, receipt.operationId.val) = some c) :
    c.claimToken = claimToken ∧ c.fenceToken = receipt.fenceToken ∧ c.attempt = receipt.attempt := by
  have hrun : Exec.Sat (completeEffect sha receipt claimToken) s
      (fun _ _ => c.claimToken = claimToken ∧ c.fenceToken = receipt.fenceToken ∧
        c.attempt = receipt.attempt) (fun _ _ => True) := by
    unfold completeEffect
    rw [Exec.sat_bind, Exec.sat_read]
    simp only [hc]
    refine Exec.Sat.check (fun _ => trivial) (fun hbound => ?_)
    cases c.receipt with
    | none => exact hbound
    | some r =>
      rw [Exec.sat_require]
      exact ⟨fun _ => hbound, fun _ => trivial⟩
  exact hrun.ok h

/-- **A completion is a step**, whatever its token. -/
theorem complete_step (receipt : ActionReceipt) (claimToken : String) (now : Datetime) :
    Fencing.Step now.instant (effectView s)
      (EffectClaimOp.request sha (.complete receipt claimToken now))
      (granted (completeEffectText sha receipt claimToken s).1)
      (effectView (completeEffectText sha receipt claimToken s).2) := by
  unfold completeEffectText
  split
  · rename_i hident
    rcases hcall : completeEffect sha receipt ⟨claimToken, hident⟩ s with ⟨out, s'⟩
    have hout := complete_outcome sha s receipt ⟨claimToken, hident⟩
    rw [hcall] at hout
    cases hout with
    | refused e => exact .refused _
    | repeated c hc r hr hsame =>
      obtain ⟨htoken, hfence, hattempt⟩ := completeEffect_fence hcall hc
      exact .repeated c.fenced ⟨effectView_some hc, congrArg Subtype.val htoken,
        congrArg Subtype.val hfence, hattempt⟩ (by rw [EffectClaim.fenced, hr]; rfl)
    | recorded c hc htoken hattempt hopen =>
      obtain ⟨-, hfence, -⟩ := completeEffect_fence hcall hc
      rw [effectView_setClaim]
      exact .completed c.fenced ⟨effectView_some hc, congrArg Subtype.val htoken,
        congrArg Subtype.val hfence, hattempt⟩ hopen receipt
  · exact .refused _

theorem granted_map {ε α β : Type} (f : α → β) (r : Except ε α) : granted (r.map f) = granted r := by
  cases r with
  | ok a => rfl
  | error e => rfl

theorem effectClaimStep_step (op : EffectClaimOp) :
    Fencing.Step op.now.instant (effectView s) (op.request sha) (granted (effectClaimStep sha s op).1)
      (effectView (effectClaimStep sha s op).2) := by
  cases op with
  | claim intent workerRef now claimUntil =>
    rw [effectClaimStep, granted_map]
    exact claim_step intent workerRef now claimUntil
  | complete receipt claimToken now =>
    rw [effectClaimStep, granted_map]
    exact complete_step receipt claimToken now

/-- A refused call changes nothing. -/
theorem effectClaimStep_refused {op : EffectClaimOp}
    (h : granted (effectClaimStep sha s op).1 = false) : (effectClaimStep sha s op).2 = s := by
  cases op with
  | claim intent workerRef now claimUntil =>
    rw [effectClaimStep, granted_map] at h
    rw [effectClaimStep]
    have hout := claim_outcome sha s intent workerRef now claimUntil
    revert hout h
    generalize claimEffect sha intent workerRef now claimUntil s = out
    intro h hout
    cases hout with
    | refused e => rfl
    | fresh | renewed | held | settled => cases h
  | complete receipt claimToken now =>
    rw [effectClaimStep, granted_map] at h
    rw [effectClaimStep]
    revert h
    unfold completeEffectText
    split
    · rename_i hident
      have hout := complete_outcome sha s receipt ⟨claimToken, hident⟩
      revert hout
      generalize completeEffect sha receipt ⟨claimToken, hident⟩ s = out
      intro hout h
      cases hout with
      | refused e => rfl
      | recorded | repeated => cases h
    · exact fun _ => rfl

/-! ## Every history -/

/-- The texts of the tokens the calls ask for. -/
def effectClaimTexts (ops : List EffectClaimOp) : Set String :=
  {text | ∃ intent workerRef now claimUntil, EffectClaimOp.claim intent workerRef now claimUntil ∈ ops ∧
    text = claimText intent.key workerRef intent.attempt intent.fenceToken}

/-- The history of the calls from new stores, as calls on fenced claims. -/
def effectClaimCalls (sha : Sha256) (policies : List ActionPolicy) (limits : String → Int)
    (ops : List EffectClaimOp) : List (Fencing.Call (String × String)
      (Digest × Digest × Digest × Digest × Digest × Identifier) String String ActionReceipt Int) :=
  (Machine.trace (effectClaimStep sha) (State.start policies limits) ops).map
    (Fencing.Call.ofEntry effectView (fun op => op.now.instant) (EffectClaimOp.request sha) granted)

theorem effectClaims_run (policies : List ActionPolicy) (limits : String → Int)
    {ops : List EffectClaimOp} (htimes : (ops.map fun op => op.now.instant).Pairwise (· ≤ ·)) :
    Fencing.Run (ClaimToken sha (effectClaimTexts ops) "effect-claim")
      (effectClaimCalls sha policies limits ops)
      (effectView (Machine.final (effectClaimStep sha) (State.start policies limits) ops)) := by
  refine Fencing.Run.ofMachine (s := State.start policies limits) effectView
    (fun op => op.now.instant) (EffectClaimOp.request sha) granted rfl
    (fun s op _ => effectClaimStep_step op) htimes ?_
  intro op hop
  cases op with
  | claim intent workerRef now claimUntil =>
    exact ⟨workerRef, intent.fenceToken, ⟨intent, workerRef, now, claimUntil, hop, rfl⟩, rfl⟩
  | complete => trivial

/-- An operation claimed by one worker, taken over by another at the next attempt, and completed under
    the token of the first. -/
def sampleEffectClaims (sha : Sha256) : List EffectClaimOp :=
  let intent (attempt : Nat) (h : 1 ≤ attempt ∧ attempt ≤ 16) : ActionIntent :=
    { tenantId := ⟨"t", computed⟩, runId := ⟨"r", computed⟩, planId := ⟨"p", computed⟩,
      action := sampleAction "a", planDigest := zeroHash, approvalDigest := zeroHash,
      policyDigest := zeroHash, operationId := ⟨"o", computed⟩, attempt,
      fenceToken := ⟨"f", computed⟩, requestedAt := ⟨0, 0⟩, dryRun := false, attempt_ok := h }
  [.claim (intent 1 first_attempt) "w1" ⟨0, 0⟩ ⟨10, 0⟩, .claim (intent 2 second_attempt) "w2" ⟨10, 0⟩ ⟨20, 0⟩,
    .complete (sampleReceipt (intent 1 first_attempt) .succeeded)
      (claimTokenOf sha (intent 1 first_attempt) "w1").val ⟨11, 0⟩]

end Remediation

end Aegis
