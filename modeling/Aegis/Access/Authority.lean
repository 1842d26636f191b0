/-
  AUTHORITY: what an allowed action rests on.

  Allowed is what the policy of the tenant allows AND one grant of the principal covers: action, purpose,
  risk and expiry are looked for in one binding, and every binding is the image of one grant record.

  Nothing here needs clocks that agree.  An identity expires with the first of its token and its grants, so a
  token that was accepted within the clock skew allows nothing once it has expired.
-/
import Mathlib
import Aegis.Access.Identity

namespace Aegis

namespace Access

open Exec (Sat)

/-! ## Policy decisions -/

structure PolicyDecision where
  allowed : Bool
  policyId : String
  policyRevision : Nat
  purpose : String
  risk : RiskLevel
  reason : String

/-- A binding that covers an action, its purpose and its risk, and has not expired. -/
def GrantBinding.covers (binding : GrantBinding) (action : Action) (purpose : String) (risk : RiskLevel)
    (now : Datetime) : Bool :=
  decide (now < binding.expiresAt) && decide (binding.purpose.val = purpose)
    && decide (action.value ∈ binding.permissions)
    && decide (riskOrder risk ≤ riskOrder binding.riskCeiling)

/-- `_denial_reason`. -/
def denialReason (identity : IdentityContext) (action : Action) (resourceTenantId purpose : String)
    (risk : RiskLevel) (policy : Option PolicyRecord) (now : Datetime) : Option String :=
  if identity.tenantId.val ≠ resourceTenantId then some "tenant_mismatch"
  else if identity.expiresAt ≤ now then some "identity_expired"
  else
    match policy with
    | none => some "no_active_policy"
    | some policy =>
      if action.value ∉ policy.allowedActions then some "action_disallowed_by_policy"
      else if purpose ∉ policy.allowedPurposes.map Subtype.val then some "purpose_disallowed_by_policy"
      else if riskOrder policy.maxRisk < riskOrder risk then some "risk_exceeds_policy"
      else
        match identity.grants.find? fun binding => binding.covers action purpose risk now with
        | none => some "no_current_purpose_grant"
        | some _ => none

/-- `EnterprisePolicy.authorize`. -/
def authorize (world : World) (identity : IdentityContext) (action : Action)
    (resourceTenantId purpose : String) (risk : RiskLevel) : Auth PolicyDecision := do
  let policy ← ask fun n => currentPolicy (world.policies n) resourceTenantId
  let now ← ask world.clock
  let reason := denialReason identity action resourceTenantId purpose risk policy now
  pure
    { allowed := decide (reason = none),
      policyId := policy.elim "deny-all:no-policy" fun policy => policy.policyId.val,
      policyRevision := policy.elim 0 fun policy => policy.revision, purpose, risk,
      reason := reason.getD "explicit_current_grant" }

/-- A policy that allows an action for a purpose, with at least a risk. -/
def PolicyRecord.Allows (policy : PolicyRecord) (action : Action) (purpose : String) (risk : RiskLevel) :
    Prop :=
  action.value ∈ policy.allowedActions ∧ (∃ p ∈ policy.allowedPurposes, p.val = purpose) ∧
    riskOrder risk ≤ riskOrder policy.maxRisk

/-- **No reason to deny** means: the tenant's own identity, not expired, and both a policy and one binding
    that allow the action. -/
theorem denialReason_none {identity : IdentityContext} {action : Action}
    {resourceTenantId purpose : String} {risk : RiskLevel} {policy : Option PolicyRecord} {now : Datetime} :
    denialReason identity action resourceTenantId purpose risk policy now = none ↔
      identity.tenantId.val = resourceTenantId ∧ now < identity.expiresAt ∧
        (∃ p, policy = some p ∧ p.Allows action purpose risk) ∧
        ∃ binding ∈ identity.grants, binding.covers action purpose risk now = true := by
  unfold denialReason PolicyRecord.Allows
  constructor
  · intro h
    split at h
    · cases h
    rename_i htenant
    split at h
    · cases h
    rename_i hexpiry
    cases policy with
    | none => cases h
    | some policy =>
      dsimp only at h
      split at h
      · cases h
      rename_i haction
      split at h
      · cases h
      rename_i hpurpose
      split at h
      · cases h
      rename_i hrisk
      cases hfind : identity.grants.find? fun binding => binding.covers action purpose risk now with
      | none => rw [hfind] at h; cases h
      | some binding =>
        have hcovers : binding.covers action purpose risk now = true := by
          have h := List.find?_some hfind
          exact h
        refine ⟨not_not.mp htenant, ?_, ⟨policy, rfl, not_not.mp haction, ?_, not_lt.mp hrisk⟩, binding,
          List.mem_of_find?_eq_some hfind, hcovers⟩
        · exact not_le.mp (show ¬identity.expiresAt.instant ≤ now.instant from hexpiry)
        · obtain ⟨p, hp, hval⟩ := List.mem_map.mp (not_not.mp hpurpose)
          exact ⟨p, hp, hval⟩
  · rintro ⟨htenant, hexpiry, ⟨p, rfl, haction, ⟨q, hq, hpurpose⟩, hrisk⟩, binding, hmem, hcovers⟩
    have hlive : ¬identity.expiresAt.instant ≤ now.instant := not_le.mpr hexpiry
    rw [if_neg (not_not.mpr htenant), if_neg (show ¬identity.expiresAt ≤ now from hlive)]
    dsimp only
    rw [if_neg (not_not.mpr haction), if_neg (not_not.mpr (List.mem_map.mpr ⟨q, hq, hpurpose⟩)),
      if_neg (not_lt.mpr hrisk)]
    cases hfind : identity.grants.find? fun binding => binding.covers action purpose risk now with
    | none => exact absurd hcovers (List.find?_eq_none.mp hfind binding hmem)
    | some _ => rfl

/-! ## What an identity rests on -/

theorem sat_ask {α : Type} {answer : Nat → α} {s : Session} {Q : α → Session → Prop}
    {R : Error → Session → Prop} :
    Sat (ask answer) s Q R ↔ Q (answer s.moment) { s with moment := s.moment + 1 } := Iff.rfl

/-- A grant of a principal that covers an action, its purpose and its risk at a time. -/
structure GrantRecord.Covers (grant : GrantRecord) (principal : PrincipalRecord) (action : Action)
    (purpose : String) (risk : RiskLevel) (now : Datetime) : Prop where
  tenant : grant.tenantId = principal.tenantId
  issuer : grant.issuer = principal.issuer
  subject : grant.subjectId = principal.subjectId
  active : grant.status = .active
  purpose : grant.purpose.val = purpose
  role : action ∈ definitions grant.role.val
  ceiling : riskOrder risk ≤ riskOrder grant.riskCeiling
  expiry : now < grant.expiresAt

theorem mem_activeGrants {repository : IdentityRepository} {principal : PrincipalRecord} {now : Datetime}
    {grant : GrantRecord} : grant ∈ repository.activeGrants principal now ↔
      grant ∈ repository.grants ∧ grant.tenantId = principal.tenantId ∧ grant.issuer = principal.issuer ∧
        grant.subjectId = principal.subjectId ∧ grant.status = .active ∧ now < grant.expiresAt := by
  simp only [IdentityRepository.activeGrants, List.mem_filter, Bool.and_eq_true, decide_eq_true_eq,
    and_assoc]

/-- The loop over the grants leaves nothing out and changes no order. -/
theorem bindGrants_ok {now : Datetime} {grants : List GrantRecord} {bindings : List GrantBinding}
    (h : bindGrants now grants = .ok bindings) : bindings = grants.map GrantRecord.binding := by
  induction grants generalizing bindings with
  | nil => rw [← Except.ok.inj h]; rfl
  | cons grant grants ih =>
    rw [bindGrants] at h
    split at h
    · cases h
    split at h
    · cases h
    obtain ⟨rest, hrest, h⟩ := except_bind_ok.mp h
    rw [← Except.ok.inj h, ih hrest]
    rfl

/-- A binding permits what the role of its grant permits. -/
theorem GrantRecord.mem_binding {grant : GrantRecord} {action : Action} :
    action.value ∈ grant.binding.permissions ↔ action ∈ definitions grant.role.val := by
  rw [GrantRecord.binding, mem_sortedSet, mem_permissionsFor]

theorem foldl_earliest_le (rest : List Datetime) (a : Datetime) :
    (earliest a rest).instant ≤ a.instant ∧ ∀ d ∈ rest, (earliest a rest).instant ≤ d.instant := by
  induction rest generalizing a with
  | nil => exact ⟨le_refl _, fun d hd => absurd hd List.not_mem_nil⟩
  | cons d rest ih =>
    have hstep : earliest a (d :: rest) = earliest (if d < a then d else a) rest := rfl
    rw [hstep]
    obtain ⟨hleast, hall⟩ := ih (if d < a then d else a)
    have hboth : (if d < a then d else a).instant ≤ a.instant ∧
        (if d < a then d else a).instant ≤ d.instant := by
      split
      · rename_i hlt
        have hlt : d.instant < a.instant := hlt
        exact ⟨by omega, le_refl _⟩
      · rename_i hge
        have hge : ¬d.instant < a.instant := hge
        exact ⟨le_refl _, by omega⟩
    refine ⟨by omega, fun x hx => ?_⟩
    rcases List.mem_cons.mp hx with rfl | hx
    · omega
    · exact hall x hx

/-- What was found out about the principal of an identity, from moment `n` on. -/
structure Grounded (world : World) (configuration : IssuerConfiguration) (claims : Claims)
    (expiry : Datetime) (principal : PrincipalRecord) (n : Nat) (identity : IdentityContext) : Prop where
  subject : ∃ subjectId tenantId, claims.get "sub" = .str subjectId ∧
    claims.get configuration.tenantClaim = .str tenantId ∧
    (world.identities n).resolvePrincipal tenantId configuration.issuer.val subjectId = some principal
  active : principal.status = .active
  version : claims.get configuration.grantVersionClaim = .int principal.grantVersion
  tenant : ∃ tenant, (world.identities (n + 1)).getTenant principal.tenantId = some tenant ∧
    tenant.status = .active
  same_tenant : identity.tenantId = principal.tenantId
  expires : identity.expiresAt ≤ expiry
  bindings : ∀ binding ∈ identity.grants, identity.expiresAt ≤ binding.expiresAt ∧
    ∃ grant ∈ (world.identities (n + 3)).activeGrants principal (world.clock (n + 2)),
      binding = grant.binding

theorem authorityClaims_ok {configuration : IssuerConfiguration} {claims : Claims}
    {subjectId tenantId : String} {grantVersion : Int}
    (h : authorityClaims configuration claims = .ok (subjectId, tenantId, grantVersion)) :
    claims.get "sub" = .str subjectId ∧ claims.get configuration.tenantClaim = .str tenantId ∧
      claims.get configuration.grantVersionClaim = .int grantVersion := by
  unfold authorityClaims at h
  split at h
  · rename_i hsubject htenant hversion
    split at h
    · cases h
    · cases h
      exact ⟨hsubject, htenant, hversion⟩
  · cases h

section Walk

variable {κ : Type} {jwt : Jwt κ} {world : World} {configuration : IssuerConfiguration} {claims : Claims}
  {s : Session}

/-- **An identity rests on the records of its moment**: every binding is one grant that was current, and
    the identity expires with the first of them. -/
theorem resolve_grounded {issuedAt expiry : Datetime} {requestId traceId : String} :
    Sat (resolve world configuration claims issuedAt expiry requestId traceId) s
      (fun identity s' => s'.moment = s.moment + 4 ∧
        ∃ principal, Grounded world configuration claims expiry principal s.moment identity)
      (fun _ _ => True) := by
  refine Sat.attempt (fun _ _ => trivial) fun found hclaims => ?_
  obtain ⟨subjectId, tenantId, grantVersion⟩ := found
  obtain ⟨hsubject, htenantClaim, hversion⟩ := authorityClaims_ok hclaims
  show Sat (ask _ >>= _) s _ _
  rw [Exec.sat_bind, sat_ask]
  cases hprincipal : (world.identities s.moment).resolvePrincipal tenantId configuration.issuer.val
    subjectId with
  | none => trivial
  | some principal =>
    refine Sat.check (fun _ => trivial) fun hcurrent => ?_
    obtain ⟨hactive, -, hgrantVersion⟩ := hcurrent
    rw [Exec.sat_bind, sat_ask]
    refine Sat.check (fun _ => trivial) fun htenant => ?_
    rw [Exec.sat_bind, sat_ask, Exec.sat_bind, sat_ask]
    refine Sat.check (fun _ => trivial) fun _ => ?_
    refine Sat.attempt (fun _ _ => trivial) fun bindings hbindings => ?_
    refine (Exec.sat_lift _).mpr ⟨fun identity hidentity => ?_, fun _ _ => trivial⟩
    obtain ⟨htenantId, hexpires, hgrants⟩ := IdentityFields.build_ok hidentity
    refine ⟨rfl, principal, ⟨⟨subjectId, tenantId, hsubject, htenantClaim, hprincipal⟩, hactive, ?_, ?_,
      htenantId, ?_, ?_⟩⟩
    · rw [hversion, hgrantVersion]
    · cases hfound : (world.identities (s.moment + 1)).getTenant principal.tenantId with
      | none => rw [hfound] at htenant; cases htenant
      | some tenant =>
        rw [hfound] at htenant
        exact ⟨tenant, rfl, of_decide_eq_true htenant⟩
    · rw [hexpires]
      exact (foldl_earliest_le _ _).1
    · intro binding hbinding
      rw [hgrants] at hbinding
      have hmem := GrantBinding.normalize_subset _ hbinding
      rw [bindGrants_ok hbindings] at hmem
      obtain ⟨grant, hgrant, rfl⟩ := List.mem_map.mp hmem
      refine ⟨?_, grant, (List.mem_insertionSort _).mp hgrant, rfl⟩
      rw [hexpires]
      exact (foldl_earliest_le _ _).2 _ (List.mem_map.mpr ⟨grant, hgrant, rfl⟩)

/-- Fetching keys takes one moment at most. -/
theorem refresh_moment {now : Datetime} : Sat (refresh world configuration now) s
    (fun _ s' => s.moment ≤ s'.moment) (fun _ _ => True) := by
  unfold refresh
  rw [Exec.sat_bind, sat_ask]
  cases world.fetch s.moment configuration.issuer configuration.jwksUri with
  | error e => trivial
  | ok document =>
    dsimp only
    split
    · refine Sat.check (fun _ => trivial) fun _ => ?_
      refine Sat.attempt (fun _ _ => trivial) fun keys _ => ?_
      rw [Exec.sat_bind, Exec.sat_modify, Exec.sat_pure]
      exact Nat.le_succ _
    · trivial

theorem verificationKey_moment {keyId algorithm : String} :
    Sat (verificationKey jwt world configuration keyId algorithm) s
      (fun _ s' => s.moment ≤ s'.moment) (fun _ _ => True) := by
  refine Sat.check (fun _ => trivial) fun _ => ?_
  rw [Exec.sat_bind, sat_ask]
  have hcached : ∀ now (s₁ : Session), s.moment ≤ s₁.moment →
      Sat (cachedKeys world configuration now) s₁ (fun _ s₂ => s.moment ≤ s₂.moment)
        (fun _ _ => True) := by
    intro now s₁ hs₁
    unfold cachedKeys
    rw [Exec.sat_bind, Exec.sat_read]
    split
    · exact hs₁
    · exact refresh_moment.mono (fun _ _ h => le_trans hs₁ h) fun _ _ _ => trivial
  have hfamiliar : ∀ now state (s₁ : Session), s.moment ≤ s₁.moment →
      Sat (familiarKeys world configuration keyId now state) s₁ (fun _ s₂ => s.moment ≤ s₂.moment)
        (fun _ _ => True) := by
    intro now state s₁ hs₁
    unfold familiarKeys
    split
    · exact refresh_moment.mono (fun _ _ h => le_trans hs₁ h) fun _ _ _ => trivial
    · exact hs₁
  refine (hcached _ _ (Nat.le_succ _)).call (fun _ _ _ => trivial) fun state s₁ hs₁ => ?_
  refine (hfamiliar _ state s₁ hs₁).call (fun _ _ _ => trivial) fun state s₂ hs₂ => ?_
  split
  · trivial
  · exact (Exec.sat_lift _).mpr ⟨fun _ _ => hs₂, fun _ _ => trivial⟩

/-- The expiry that is used is the one the token names. -/
theorem validateTimes_expiry : Sat (validateTimes jwt world claims configuration) s
    (fun times s' => numericDate jwt (claims.get "exp") "exp" = .ok times.2 ∧ s.moment ≤ s'.moment)
    (fun _ _ => True) := by
  refine Sat.attempt (fun _ _ => trivial) fun issuedAt _ => ?_
  refine Sat.attempt (fun _ _ => trivial) fun expiresAt hexpires => ?_
  refine Sat.attempt (fun _ _ => trivial) fun start _ => ?_
  rw [Exec.sat_bind, sat_ask]
  refine (Exec.sat_lift _).mpr ⟨fun times htimes => ⟨?_, Nat.le_succ _⟩, fun _ _ => trivial⟩
  have hsame : times = (issuedAt, expiresAt) := by
    unfold checkTimes at htimes
    dsimp only at htimes
    split at htimes
    · cases htimes
    split at htimes
    · cases htimes
    split at htimes
    · cases htimes
    split at htimes
    · cases htimes
    split at htimes
    · cases htimes
    exact (Except.ok.inj htimes).symm
  rw [hsame]
  exact hexpires

/-- What was found out about the token of an identity. -/
structure Verified (jwt : Jwt κ) (configuration : IssuerConfiguration) (claims : Claims)
    (expiry : Datetime) : Prop where
  issuer : claims.get "iss" = .str configuration.issuer.val
  audience : AudienceMatched claims configuration.audiences
  expiry : numericDate jwt (claims.get "exp") "exp" = .ok expiry

theorem authenticate_grounded (hjwt : jwt.Verifies) {configurations : List IssuerConfiguration}
    {token requestId traceId : String} :
    Sat (authenticate jwt world configurations token requestId traceId) s
      (fun identity s' => ∃ configuration ∈ configurations, ∃ claims expiry principal n,
        s.moment ≤ n ∧ s'.moment = n + 4 ∧ Verified jwt configuration claims expiry ∧
          Grounded world configuration claims expiry principal n identity)
      (fun _ _ => True) := by
  refine Sat.check (fun _ => trivial) fun _ => ?_
  split
  · rename_i header unverified _ _
    cases hconfiguration : configurationOf configurations (unverified.get "iss") with
    | none => trivial
    | some configuration =>
      have htrusted : configuration ∈ configurations := by
        unfold configurationOf at hconfiguration
        split at hconfiguration
        · exact List.mem_of_find?_eq_some hconfiguration
        · cases hconfiguration
      refine Sat.attempt (fun _ _ => trivial) fun permitted _ => ?_
      obtain ⟨algorithm, keyId⟩ := permitted
      refine verificationKey_moment.call (fun _ _ _ => trivial) fun key s₁ hs₁ => ?_
      cases hdecode : jwt.decode token key [algorithm] configuration.audiences configuration.issuer.val
        requiredClaims with
      | none => trivial
      | some claims =>
        refine validateTimes_expiry.call (fun _ _ _ => trivial) fun times s₂ hs₂ => ?_
        obtain ⟨issuedAt, expiry⟩ := times
        obtain ⟨hexpiry, hs₂⟩ := hs₂
        refine resolve_grounded.mono (fun identity s₃ hs₃ => ?_) fun _ _ _ => trivial
        obtain ⟨hmoment, principal, hgrounded⟩ := hs₃
        exact ⟨configuration, htrusted, claims, expiry, principal, s₂.moment, le_trans hs₁ hs₂, hmoment,
          ⟨hjwt.issuer _ _ _ _ _ _ _ hdecode, hjwt.audience _ _ _ _ _ _ _ hdecode, hexpiry⟩, hgrounded⟩
  · trivial

end Walk

/-! ## What an allowed action rests on -/

/-- What lets a principal act: its own tenant, the policy of that tenant, and one of its grants. -/
structure Permitted (principal : PrincipalRecord) (policies : List PolicyRecord)
    (grants : List GrantRecord) (action : Action) (resourceTenantId purpose : String) (risk : RiskLevel)
    (now : Datetime) : Prop where
  tenant : principal.tenantId.val = resourceTenantId
  policy : ∃ policy, currentPolicy policies resourceTenantId = some policy ∧
    policy.Allows action purpose risk
  grant : ∃ grant ∈ grants, grant.Covers principal action purpose risk now

/-- **Authority never exceeds current grants.**  What an identity is allowed rests on a verified token that
    has not expired, on a principal and a tenant that were active when it was authenticated, on the policy
    of the tenant, and on one grant of the principal; no binding has expired. -/
theorem authority_current {κ : Type} {jwt : Jwt κ} (hjwt : jwt.Verifies) {world : World}
    {configurations : List IssuerConfiguration} {token requestId traceId : String} {s s' t t' : Session}
    {identity : IdentityContext} {action : Action} {resourceTenantId purpose : String} {risk : RiskLevel}
    {decision : PolicyDecision}
    (hauthenticated : authenticate jwt world configurations token requestId traceId s = (.ok identity, s'))
    (hdecided : authorize world identity action resourceTenantId purpose risk t = (.ok decision, t'))
    (hallowed : decision.allowed = true) :
    ∃ configuration ∈ configurations, ∃ claims expiry principal n,
      (s.moment ≤ n ∧ s'.moment = n + 4) ∧ Verified jwt configuration claims expiry ∧
        Grounded world configuration claims expiry principal n identity ∧
        (world.clock (t.moment + 1) < expiry ∧
          ∀ binding ∈ identity.grants, world.clock (t.moment + 1) < binding.expiresAt) ∧
        Permitted principal (world.policies t.moment) (world.identities (n + 3)).grants action
          resourceTenantId purpose risk (world.clock (t.moment + 1)) := by
  obtain ⟨configuration, htrusted, claims, expiry, principal, n, hstart, hend, hverified, hgrounded⟩ :=
    (authenticate_grounded hjwt).ok hauthenticated
  have hreason : denialReason identity action resourceTenantId purpose risk
      (currentPolicy (world.policies t.moment) resourceTenantId) (world.clock (t.moment + 1)) = none := by
    have hdecision : decision.allowed = decide (denialReason identity action resourceTenantId purpose risk
        (currentPolicy (world.policies t.moment) resourceTenantId) (world.clock (t.moment + 1)) = none) := by
      rw [← Except.ok.inj (congrArg Prod.fst hdecided)]
    exact of_decide_eq_true (hdecision.symm.trans hallowed)
  obtain ⟨htenant, hlive, hpolicy, binding, hbinding, hcovers⟩ := denialReason_none.mp hreason
  have hlive : (world.clock (t.moment + 1)).instant < identity.expiresAt.instant := hlive
  refine ⟨configuration, htrusted, claims, expiry, principal, n, ⟨hstart, hend⟩, hverified, hgrounded,
    ⟨lt_of_lt_of_le hlive hgrounded.expires, fun b hb =>
      lt_of_lt_of_le hlive (hgrounded.bindings b hb).1⟩, ?_, hpolicy, ?_⟩
  · rw [← hgrounded.same_tenant, htenant]
  · -- the one binding that covers the action is the image of the grant we look for
    obtain ⟨-, grant, hgrant, rfl⟩ := hgrounded.bindings binding hbinding
    obtain ⟨hmem, hsame, hissuer, hsubject, hactive, -⟩ := mem_activeGrants.mp hgrant
    simp only [GrantBinding.covers, Bool.and_eq_true, decide_eq_true_eq] at hcovers
    obtain ⟨⟨⟨hexpiry, hpurpose⟩, haction⟩, hrisk⟩ := hcovers
    exact ⟨grant, hmem, ⟨hsame, hissuer, hsubject, hactive, hpurpose, GrantRecord.mem_binding.mp haction,
      hrisk, hexpiry⟩⟩

/-! ## A worked example -/

def known (s : String) (h : isIdentifier s = true := by exact computed) : Identifier := ⟨s, h⟩

def sampleIssuer : Issuer := ⟨"https://idp", by decide⟩

def sampleSubject : SubjectIdentifier := ⟨"worker", by decide⟩

def sampleConfiguration : IssuerConfiguration where
  issuer := sampleIssuer
  audiences := ["aegis"]
  jwksUri := "https://idp/jwks"
  algorithms := ["RS256"]
  tenantClaim := "aegis_tenant"
  grantVersionClaim := "aegis_grant_version"
  clockSkewSeconds := 30
  maximumTokenLifetimeSeconds := 3600
  jwksTtlSeconds := 300
  jwksRefreshCooldownSeconds := 5
  maximumJwksKeys := 16
  audiences_ok := by decide
  algorithms_ok := by decide
  skew_ok := by decide
  lifetime_ok := by decide
  ttl_ok := by decide
  cooldown_ok := by decide
  keys_ok := by decide

def sampleClaims : Claims :=
  [("iss", .str "https://idp"), ("aud", .str "aegis"), ("iat", .int 0), ("exp", .int 600),
    ("sub", .str "worker"), ("aegis_tenant", .str "tenant"), ("aegis_grant_version", .int 1)]

/-- A library that knows one token. -/
def sampleJwt : Jwt Unit where
  unverifiedHeader := fun _ => some [("alg", .str "RS256"), ("kid", .str "key")]
  unverified := fun _ => some sampleClaims
  fromDict := fun _ _ => some ()
  decode := fun token _ algorithms audiences issuer _ =>
    if token = "token" ∧ "RS256" ∈ algorithms ∧ "aegis" ∈ audiences ∧ issuer = "https://idp" then
      some sampleClaims
    else none
  fromtimestamp := fun _ => none

theorem sampleJwt_verifies : sampleJwt.Verifies where
  issuer := by
    intro token key algorithms audiences issuer required claims h
    simp only [sampleJwt] at h
    split at h
    · rename_i hknown
      obtain ⟨-, -, -, rfl⟩ := hknown
      rw [← Option.some.inj h]; rfl
    · cases h
  audience := by
    intro token key algorithms audiences issuer required claims h
    simp only [sampleJwt] at h
    split at h
    · rename_i hknown
      obtain ⟨-, -, haudience, -⟩ := hknown
      rw [← Option.some.inj h]
      exact .inl ⟨"aegis", haudience, rfl⟩
    · cases h

def sampleRepository : IdentityRepository where
  tenants := [⟨known "tenant", .active⟩]
  principals := [⟨known "tenant", sampleIssuer, sampleSubject, .workload, .active, 1, by decide⟩]
  grants := [⟨known "grant-1", known "tenant", sampleIssuer, sampleSubject, known "effect-worker",
    known "remediation", .medium, .active, ⟨500000000, 0⟩⟩]

def sampleWorld : World where
  clock := fun n => ⟨n, 0⟩
  fetch := fun _ _ _ => .ok [("keys", .arr [.obj [("kid", .str "key")]])]
  identities := fun _ => sampleRepository
  policies := fun _ => [⟨known "policy", known "tenant", 1, [Action.effectExecute.value],
    [known "remediation"], .medium, by decide⟩]

/-- A worker that executes an effect within its grant. -/
theorem worker_current : ∃ s t : Session, ∃ identity decision,
    (authenticate sampleJwt sampleWorld [sampleConfiguration] "token" "request" "trace" ⟨fun _ => none, 0⟩
      = (.ok identity, s)) ∧
    (authorize sampleWorld identity .effectExecute "tenant" "remediation" .low s = (.ok decision, t)) ∧
    decision.allowed = true ∧
    ∃ principal, Permitted principal (sampleWorld.policies s.moment) sampleRepository.grants .effectExecute
      "tenant" "remediation" .low (sampleWorld.clock (s.moment + 1)) := by
  have hrun : ∃ s t : Session, ∃ identity decision,
      (authenticate sampleJwt sampleWorld [sampleConfiguration] "token" "request" "trace"
        ⟨fun _ => none, 0⟩ = (.ok identity, s)) ∧
      (authorize sampleWorld identity .effectExecute "tenant" "remediation" .low s = (.ok decision, t)) ∧
      decision.allowed = true := ⟨_, _, _, _, rfl, rfl, by decide +kernel⟩
  obtain ⟨s, t, identity, decision, hidentity, hdecision, hallowed⟩ := hrun
  obtain ⟨_, -, _, _, principal, _, -, -, -, -, hpermitted⟩ :=
    authority_current sampleJwt_verifies hidentity hdecision hallowed
  exact ⟨s, t, identity, decision, hidentity, hdecision, hallowed, principal, hpermitted⟩

end Access

end Aegis
