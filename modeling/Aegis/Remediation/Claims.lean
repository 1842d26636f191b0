/-
  WHAT EACH STORE DOES, one call at a time.

  `append_outcome` says it for the ledger; here is the same for the claims of effects, their completion,
  and the quota.  A claim is FRESH, RENEWED by a later attempt once it has run out, SETTLED by a receipt,
  REFUSED, or -- the one case in which two callers pass -- HELD: unexpired, without a receipt, and under
  the very token of the caller, for a token is a hash of the worker, the attempt and the fence.

  `Frame` is what most calls leave alone: the claims and the calls of the adapter.
-/
import Mathlib
import Aegis.Remediation.LedgerLaws

namespace Aegis

namespace Remediation

variable {sha : Sha256} {ports : Ports} {s : State}

/-! ## Claims -/

/-- The key an intent is claimed under. -/
def ActionIntent.key (intent : ActionIntent) : String × String :=
  (intent.tenantId.val, intent.operationId.val)

/-- The claim a first call makes. -/
def newClaim (sha : Sha256) (intent : ActionIntent) (workerRef : String) (claimUntil : Datetime) :
    EffectClaim where
  actionDigest := intent.action.digest sha
  planDigest := intent.planDigest
  approvalDigest := intent.approvalDigest
  policyDigest := intent.policyDigest
  targetFingerprint := intent.action.target.resourceFingerprint
  fenceToken := intent.fenceToken
  attempt := intent.attempt
  claimToken := claimTokenOf sha intent workerRef
  claimUntil
  receipt := none

/-- The claim as a later attempt takes it over. -/
def EffectClaim.renew (sha : Sha256) (c : EffectClaim) (intent : ActionIntent) (workerRef : String)
    (claimUntil : Datetime) : EffectClaim :=
  { c with attempt := intent.attempt, claimToken := claimTokenOf sha intent workerRef, claimUntil }

def State.setClaim (s : State) (key : String × String) (c : EffectClaim) : State :=
  { s with claims := Function.update s.claims key (some c) }

/-- The claim is held by whoever has the token of this caller. -/
structure Held (sha : Sha256) (intent : ActionIntent) (workerRef : String) (now : Datetime)
    (c : EffectClaim) : Prop where
  open_ : c.receipt = none
  unexpired : now < c.claimUntil
  own : c.claimToken = claimTokenOf sha intent workerRef

inductive ClaimOutcome (sha : Sha256) (s : State) (intent : ActionIntent) (workerRef : String)
    (now claimUntil : Datetime) : Except Error EffectClaimRecord × State → Prop
  | fresh (hnone : s.claims intent.key = none) :
    ClaimOutcome sha s intent workerRef now claimUntil
      (.ok ((newClaim sha intent workerRef claimUntil).toRecord false),
        s.setClaim intent.key (newClaim sha intent workerRef claimUntil))
  | renewed (c : EffectClaim) (hc : s.claims intent.key = some c)
    (hbinding : c.binding = intent.binding sha) (hopen : c.receipt = none)
    (hexpired : c.claimUntil ≤ now) (hattempt : c.attempt < intent.attempt) :
    ClaimOutcome sha s intent workerRef now claimUntil
      (.ok ((c.renew sha intent workerRef claimUntil).toRecord true),
        s.setClaim intent.key (c.renew sha intent workerRef claimUntil))
  | held (c : EffectClaim) (hc : s.claims intent.key = some c)
    (hbinding : c.binding = intent.binding sha) (hheld : Held sha intent workerRef now c) :
    ClaimOutcome sha s intent workerRef now claimUntil (.ok (c.toRecord true), s)
  | settled (c : EffectClaim) (hc : s.claims intent.key = some c)
    (hbinding : c.binding = intent.binding sha) (r : ActionReceipt) (hr : c.receipt = some r) :
    ClaimOutcome sha s intent workerRef now claimUntil (.ok (c.toRecord true), s)
  | refused (e : Error) : ClaimOutcome sha s intent workerRef now claimUntil (.error e, s)

theorem claim_outcome (sha : Sha256) (s : State) (intent : ActionIntent) (workerRef : String)
    (now claimUntil : Datetime) :
    ClaimOutcome sha s intent workerRef now claimUntil
      (claimEffect sha intent workerRef now claimUntil s) := by
  have hrun : Exec.Sat (claimEffect sha intent workerRef now claimUntil) s
      (fun r s' => ClaimOutcome sha s intent workerRef now claimUntil (.ok r, s'))
      (fun e s' => ClaimOutcome sha s intent workerRef now claimUntil (.error e, s')) := by
    unfold claimEffect
    refine Exec.Sat.check (fun _ => .refused _) (fun _ => ?_)
    rw [Exec.sat_bind, Exec.sat_read]
    dsimp only
    cases hc : s.claims (intent.tenantId.val, intent.operationId.val) with
    | none => exact .fresh hc
    | some c =>
      refine Exec.Sat.check (fun _ => .refused _) (fun hbinding => ?_)
      refine Exec.Sat.check (fun _ => .refused _) (fun hmine => ?_)
      split
      · rename_i hexpired
        refine Exec.Sat.check (fun _ => .refused _) (fun hattempt => ?_)
        exact .renewed c hc hbinding (Option.isNone_iff_eq_none.mp hexpired.1) hexpired.2 hattempt
      · rename_i hkept
        cases hr : c.receipt with
        | some r => exact .settled c hc hbinding r hr
        | none =>
          -- no receipt and not renewed: unexpired, so the token must be the caller's
          have hopen : c.receipt.isNone = true := by rw [hr]; rfl
          have hunexpired : now < c.claimUntil := by
            by_contra hpast
            exact hkept ⟨hopen, Int.not_lt.mp hpast⟩
          refine .held c hc hbinding ⟨hr, hunexpired, ?_⟩
          by_contra hother
          exact hmine ⟨hopen, hunexpired, hother⟩
  exact hrun.outcome (P := fun r s' => ClaimOutcome sha s intent workerRef now claimUntil (r, s'))

/-! ## Completion -/

inductive CompleteOutcome (sha : Sha256) (s : State) (receipt : ActionReceipt)
    (claimToken : Identifier) : Except Error Unit × State → Prop
  | recorded (c : EffectClaim)
    (hc : s.claims (receipt.tenantId.val, receipt.operationId.val) = some c)
    (htoken : c.claimToken = claimToken) (hattempt : c.attempt = receipt.attempt)
    (hopen : c.receipt = none) :
    CompleteOutcome sha s receipt claimToken (.ok (),
      s.setClaim (receipt.tenantId.val, receipt.operationId.val) { c with receipt := some receipt })
  | repeated (c : EffectClaim)
    (hc : s.claims (receipt.tenantId.val, receipt.operationId.val) = some c) (r : ActionReceipt)
    (hr : c.receipt = some r) (hsame : r.digest sha = receipt.digest sha) :
    CompleteOutcome sha s receipt claimToken (.ok (), s)
  | refused (e : Error) : CompleteOutcome sha s receipt claimToken (.error e, s)

theorem complete_outcome (sha : Sha256) (s : State) (receipt : ActionReceipt)
    (claimToken : Identifier) :
    CompleteOutcome sha s receipt claimToken (completeEffect sha receipt claimToken s) := by
  have hrun : Exec.Sat (completeEffect sha receipt claimToken) s
      (fun r s' => CompleteOutcome sha s receipt claimToken (.ok r, s'))
      (fun e s' => CompleteOutcome sha s receipt claimToken (.error e, s')) := by
    unfold completeEffect
    rw [Exec.sat_bind, Exec.sat_read]
    dsimp only
    cases hc : s.claims (receipt.tenantId.val, receipt.operationId.val) with
    | none => exact .refused _
    | some c =>
      refine Exec.Sat.check (fun _ => .refused _) (fun hbound => ?_)
      cases hr : c.receipt with
      | none => exact .recorded c hc hbound.1 hbound.2.2 hr
      | some r =>
        rw [Exec.sat_require]
        exact ⟨fun hsame => .repeated c hc r hr hsame, fun _ => .refused _⟩
  exact hrun.outcome (P := fun r s' => CompleteOutcome sha s receipt claimToken (r, s'))

/-! ## Frames -/

/-- What a call leaves alone: the claims and the calls of the adapter. -/
structure Frame (s s' : State) : Prop where
  claims : s'.claims = s.claims
  calls : s'.calls = s.calls

/-- A body that leaves the claims and the calls of the adapter alone, however it ends. -/
abbrev Framed {α : Type} (x : Action α) (s : State) : Prop :=
  Exec.Sat x s (fun _ s' => Frame s s') (fun _ s' => Frame s s')

theorem framed_look {α : Type} (f : State → α) :
    Framed (Exec.read >>= fun s => pure (f s)) s := ⟨rfl, rfl⟩

theorem framed_now : Framed (now ports) s := ⟨rfl, rfl⟩

theorem framed_authorize {identity : IdentityContext} {action : PolicyAction} {risk : RiskLevel} :
    Framed (authorize ports identity action risk) s := by
  unfold authorize Framed
  rw [Exec.sat_bind, Exec.sat_read, Exec.sat_bind, Exec.sat_modify]
  dsimp only
  rw [Exec.sat_require]
  exact ⟨fun _ => ⟨rfl, rfl⟩, fun _ => ⟨rfl, rfl⟩⟩

theorem framed_append {tenantId planId : String} {expectedVersion : Int}
    {factType : RemediationFactType} {commandId actor : String} {time : Datetime}
    {payload : Fields} :
    Framed (append sha tenantId planId expectedVersion factType commandId actor time payload) s := by
  have hout := append_outcome sha s
    ⟨tenantId, planId, expectedVersion, factType, commandId, actor, time, payload⟩
  unfold appendStep at hout
  unfold Framed Exec.Sat
  generalize append sha tenantId planId expectedVersion factType commandId actor time payload s
    = result at hout ⊢
  cases hout with
  | replayed p hknown hprojection => exact ⟨rfl, rfl⟩
  | recorded fact p hrecorded => exact ⟨rfl, rfl⟩
  | refused e hother => exact ⟨rfl, rfl⟩

theorem framed_reserve {tenantId : String} {reservationId : Identifier} {units : Nat} :
    Framed (reserveQuota tenantId reservationId units) s := by
  unfold reserveQuota Framed
  refine Exec.Sat.check (fun _ => ⟨rfl, rfl⟩) (fun _ => ?_)
  rw [Exec.sat_bind, Exec.sat_read]
  dsimp only
  cases s.reservations (tenantId, reservationId.val) with
  | some existing => exact ⟨rfl, rfl⟩
  | none => exact ⟨rfl, rfl⟩

theorem sat_callAdapter {α : Type} {call : AdapterCall} {answer : Nat → Except Error α}
    {Q : α → State → Prop} {R : Error → State → Prop}
    (hok : ∀ a, answer s.tick = .ok a →
      Q a { s with tick := s.tick + 1, calls := s.calls ++ [call] })
    (herror : ∀ e, answer s.tick = .error e →
      R e { s with tick := s.tick + 1, calls := s.calls ++ [call] }) :
    Exec.Sat (callAdapter call answer) s Q R := by
  unfold callAdapter
  rw [Exec.sat_bind, Exec.sat_read, Exec.sat_bind, Exec.sat_modify]
  exact (Exec.sat_lift _).mpr ⟨hok, herror⟩

end Remediation

end Aegis
