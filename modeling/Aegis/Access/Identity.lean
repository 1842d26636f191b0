/-
  AUTHENTICATION: a token is verified, and its principal and grants are looked up as they are NOW.

  A token names a tenant and a grant version; it grants nothing by itself.  Roles come from the grants that
  the repository holds when it is asked, permissions from the catalog.

  Every call of a clock, of the repository or of a key fetcher is a MOMENT: `World` says what each of them
  answers there, so that all of it may change between two calls, within an authentication too.  Tokens are
  read and their signatures verified by a library (`Jwt`).
-/
import Mathlib
import Aegis.Lib.Exec
import Aegis.Access.Records

namespace Aegis

namespace Access

/-! ## Configurations, tokens and the world -/

structure IssuerConfiguration where
  issuer : Issuer
  audiences : List String
  jwksUri : String
  algorithms : List String
  tenantClaim : String
  grantVersionClaim : String
  clockSkewSeconds : Nat
  maximumTokenLifetimeSeconds : Nat
  jwksTtlSeconds : Nat
  jwksRefreshCooldownSeconds : Nat
  maximumJwksKeys : Nat
  audiences_ok : audiences ≠ []
  algorithms_ok : algorithms ≠ [] ∧ ∀ a ∈ algorithms, a ∈ ["RS256", "PS256", "ES256"]
  skew_ok : clockSkewSeconds ≤ 120
  lifetime_ok : 60 ≤ maximumTokenLifetimeSeconds ∧ maximumTokenLifetimeSeconds ≤ 86400
  ttl_ok : 30 ≤ jwksTtlSeconds ∧ jwksTtlSeconds ≤ 3600
  cooldown_ok : 1 ≤ jwksRefreshCooldownSeconds ∧ jwksRefreshCooldownSeconds ≤ 60
  keys_ok : 1 ≤ maximumJwksKeys ∧ maximumJwksKeys ≤ 32

/-- A JSON object of a header, a payload or a key set. -/
abbrev Claims := List (String × Json)

/-- `claims.get(name)`; an absent claim reads as null. -/
def Claims.get (claims : Claims) (name : String) : Json := (claims.lookup name).getD .null

/-- The token library: headers and payloads read without verification, keys, verification with the
    algorithms, audiences, issuer and required claims it is asked to check, and the datetime of a number of
    seconds that is a float.  `none` is the library's error. -/
structure Jwt (κ : Type) where
  unverifiedHeader : String → Option Claims
  unverified : String → Option Claims
  fromDict : Claims → String → Option κ
  decode : String → κ → List String → List String → String → List String → Option Claims
  fromtimestamp : FloatText → Option Datetime

/-- `aud` names one of the audiences, or is a list with one of them. -/
def AudienceMatched (claims : Claims) (audiences : List String) : Prop :=
  (∃ a ∈ audiences, claims.get "aud" = .str a) ∨
    ∃ values, claims.get "aud" = .arr values ∧ ∃ a ∈ audiences, Json.str a ∈ values

/-- What the library documents about the claims that a verification returns. -/
structure Jwt.Verifies {κ : Type} (jwt : Jwt κ) : Prop where
  issuer : ∀ token key algorithms audiences issuer required claims,
    jwt.decode token key algorithms audiences issuer required = some claims →
      claims.get "iss" = .str issuer
  audience : ∀ token key algorithms audiences issuer required claims,
    jwt.decode token key algorithms audiences issuer required = some claims →
      AudienceMatched claims audiences

/-- `InMemoryIdentityRepository`. -/
structure IdentityRepository where
  tenants : List TenantRecord
  principals : List PrincipalRecord
  grants : List GrantRecord

namespace IdentityRepository

/-- `resolve_principal`: the last record under an issuer and a subject counts. -/
def resolvePrincipal (repository : IdentityRepository) (tenantId issuer subjectId : String) :
    Option PrincipalRecord :=
  (repository.principals.reverse.find? fun principal =>
    decide (principal.issuer.val = issuer) && decide (principal.subjectId.val = subjectId)).filter
      fun principal => decide (principal.tenantId.val = tenantId)

/-- `get_tenant`. -/
def getTenant (repository : IdentityRepository) (tenantId : Identifier) : Option TenantRecord :=
  repository.tenants.reverse.find? fun tenant => decide (tenant.tenantId = tenantId)

/-- `active_grants`. -/
def activeGrants (repository : IdentityRepository) (principal : PrincipalRecord) (now : Datetime) :
    List GrantRecord :=
  repository.grants.filter fun grant => decide (grant.tenantId = principal.tenantId)
    && decide (grant.issuer = principal.issuer) && decide (grant.subjectId = principal.subjectId)
    && decide (grant.status = .active) && decide (now < grant.expiresAt)

end IdentityRepository

/-- `InMemoryGovernance`, as far as policies go: the last record of a tenant counts. -/
def currentPolicy (policies : List PolicyRecord) (tenantId : String) : Option PolicyRecord :=
  policies.reverse.find? fun policy => decide (policy.tenantId.val = tenantId)

/-- What clock, key fetcher, identity repository and policy repository answer at each moment. -/
structure World where
  clock : Nat → Datetime
  fetch : Nat → Issuer → String → Except Error Claims
  identities : Nat → IdentityRepository
  policies : Nat → List PolicyRecord

/-- `_CacheState`. -/
structure CacheState where
  keys : List (String × Claims)
  expiresAt : Datetime
  refreshedAt : Datetime

/-- The key caches, and the moment of the next call. -/
structure Session where
  caches : Issuer → Option CacheState
  moment : Nat

abbrev Auth (α : Type) : Type := Exec Error Session α

/-- A call that is answered with what holds at its moment. -/
def ask {α : Type} (answer : Nat → α) : Auth α :=
  fun s => (.ok (answer s.moment), { s with moment := s.moment + 1 })

def failed (message : String) : Error := ⟨.authenticationFailed, message⟩

def unavailable (message : String) : Error := ⟨.identityUnavailable, message⟩

/-! ## Keys -/

section Authenticate

variable {κ : Type} (jwt : Jwt κ) (world : World)

/-- The loop of `_refresh` over the keys of a document. -/
def parseKeys : List Json → List (String × Claims) → Except Error (List (String × Claims))
  | [], parsed => .ok parsed
  | .obj rawKey :: rawKeys, parsed =>
    match Claims.get rawKey "kid" with
    | .str keyId =>
      if keyId = "" ∨ 128 < keyId.toList.length then .error (unavailable "JWKS key ID is invalid")
      else if parsed.any (fun entry => entry.1 = keyId) = true then
        .error (unavailable "JWKS key IDs must be unique")
      else parseKeys rawKeys (parsed ++ [(keyId, rawKey)])
    | _ => .error (unavailable "JWKS key ID is invalid")
  | _ :: _, _ => .error (unavailable "JWKS key must be an object")

/-- `_refresh`. -/
def refresh (configuration : IssuerConfiguration) (now : Datetime) : Auth CacheState := do
  let answer ← ask fun n => world.fetch n configuration.issuer configuration.jwksUri
  match answer with
  | .error e =>
    Exec.raise (if e.kind = .identityUnavailable then e else unavailable "JWKS fetcher failed")
  | .ok document =>
    match document.get "keys" with
    | .arr (rawKey :: rawKeys) => do
      Exec.require ((rawKey :: rawKeys).length ≤ configuration.maximumJwksKeys)
        (unavailable "JWKS contains too many keys")
      let keys ← Exec.lift (parseKeys (rawKey :: rawKeys) [])
      let state : CacheState := ⟨keys, now.addSeconds configuration.jwksTtlSeconds, now⟩
      Exec.modify fun s => { s with caches := Function.update s.caches configuration.issuer (some state) }
      pure state
    | _ => Exec.raise (unavailable "JWKS must contain keys")

/-- The algorithm a key declares, if any. -/
def algorithmMatches (declared : Json) (algorithm : String) : Except Error Unit :=
  match declared with
  | .null => .ok ()
  | .str name =>
    if name = algorithm then .ok () else .error (failed "token algorithm does not match its key")
  | _ => .error (failed "token algorithm does not match its key")

/-- A list or an object cannot be looked up in a set. -/
def usedForSigning (use : Json) : Except Error Unit :=
  match use with
  | .null | .str "sig" => .ok ()
  | .arr _ | .obj _ => .error ⟨.typeError, "unhashable type"⟩
  | _ => .error (failed "token key is not a signing key")

def isVerify (operation : Json) : Bool :=
  match operation with
  | .str "verify" => true
  | _ => false

def verifiesSignatures (operations : Json) : Except Error Unit :=
  match operations with
  | .null => .ok ()
  | .arr values =>
    if values.any isVerify = true then .ok () else .error (failed "token key cannot verify signatures")
  | _ => .error (failed "token key cannot verify signatures")

/-- `_parse_key`. -/
def parseKey (candidate : Claims) (algorithm : String) : Except Error κ := do
  algorithmMatches (candidate.get "alg") algorithm
  usedForSigning (candidate.get "use")
  verifiesSignatures (candidate.get "key_ops")
  match jwt.fromDict candidate algorithm with
  | none => .error (failed "token signing key is invalid")
  | some key => pure key

/-- The cached keys, fetched again when they have expired. -/
def cachedKeys (configuration : IssuerConfiguration) (now : Datetime) : Auth CacheState := do
  let s ← Exec.read
  match (s.caches configuration.issuer).filter fun state => decide (now < state.expiresAt) with
  | some state => pure state
  | none => refresh world configuration now

/-- Keys without the one that is asked for are fetched again, after a cooldown. -/
def familiarKeys (configuration : IssuerConfiguration) (keyId : String) (now : Datetime)
    (state : CacheState) : Auth CacheState :=
  if state.keys.lookup keyId = none ∧
      state.refreshedAt.addSeconds configuration.jwksRefreshCooldownSeconds ≤ now then
    refresh world configuration now
  else pure state

/-- `verification_key`. -/
def verificationKey (configuration : IssuerConfiguration) (keyId algorithm : String) : Auth κ := do
  Exec.require (keyId ≠ "" ∧ keyId.toList.length ≤ 128) (failed "token key ID is invalid")
  let now ← ask world.clock
  let state ← cachedKeys world configuration now
  let state ← familiarKeys world configuration keyId now state
  match state.keys.lookup keyId with
  | none => Exec.raise (failed "token signing key is unknown")
  | some candidate => Exec.lift (parseKey jwt candidate algorithm)

/-! ## Tokens -/

/-- `str.isspace`. -/
def isSpace (c : Char) : Bool :=
  let n := c.toNat
  (decide (9 ≤ n) && decide (n ≤ 13)) || (decide (28 ≤ n) && decide (n ≤ 32)) || n == 0x85 || n == 0xa0
    || n == 0x1680 || (decide (0x2000 ≤ n) && decide (n ≤ 0x200a)) || n == 0x2028 || n == 0x2029
    || n == 0x202f || n == 0x205f || n == 0x3000

/-- `_numeric_date`: a number of seconds within the years that a datetime can have. -/
def numericDate (value : Json) (claim : String) : Except Error Datetime :=
  match value with
  | .int seconds =>
    if -62135596800 ≤ seconds ∧ seconds ≤ 253402300799 then .ok ⟨seconds * 1000000, 0⟩
    else .error (failed ("token " ++ claim ++ " claim is invalid"))
  | .float seconds =>
    match jwt.fromtimestamp seconds with
    | none => .error (failed ("token " ++ claim ++ " claim is invalid"))
    | some date => .ok date
  | _ => .error (failed ("token " ++ claim ++ " claim must be a NumericDate"))

/-- `not_before`: the claim is optional. -/
def notBefore (claims : Claims) : Except Error (Option Datetime) :=
  match claims.get "nbf" with
  | .null => .ok none
  | value => (numericDate jwt value "nbf").map some

/-- The checks of `_validate_times`, in order. -/
def checkTimes (configuration : IssuerConfiguration) (issuedAt expiresAt : Datetime)
    (notBefore : Option Datetime) (now : Datetime) : Except Error (Datetime × Datetime) :=
  let skew : Int := configuration.clockSkewSeconds
  if now.addSeconds skew < issuedAt then .error (failed "token was issued in the future")
  else if expiresAt ≤ now.addSeconds (-skew) then .error (failed "token has expired")
  else if expiresAt ≤ issuedAt then .error (failed "token expiry must follow issuance")
  else if issuedAt.addSeconds configuration.maximumTokenLifetimeSeconds < expiresAt then
    .error (failed "token lifetime exceeds policy")
  else if notBefore.any (fun start => decide (now.addSeconds skew < start ∨ expiresAt ≤ start)) = true then
    .error (failed "token is not currently valid")
  else .ok (issuedAt, expiresAt)

/-- `_validate_times`. -/
def validateTimes (claims : Claims) (configuration : IssuerConfiguration) : Auth (Datetime × Datetime) := do
  let issuedAt ← Exec.lift (numericDate jwt (claims.get "iat") "iat")
  let expiresAt ← Exec.lift (numericDate jwt (claims.get "exp") "exp")
  let start ← Exec.lift (notBefore jwt claims)
  let now ← ask world.clock
  Exec.lift (checkTimes configuration issuedAt expiresAt start now)

/-- What a token header may say: a permitted algorithm, a key, nothing critical, and perhaps a type. -/
def headerPermitted (configuration : IssuerConfiguration) (header : Claims) :
    Except Error (String × String) :=
  match header.get "alg", header.get "kid", header.get "crit" with
  | .str algorithm, .str keyId, .null =>
    if algorithm ∈ configuration.algorithms then
      match header.get "typ" with
      | .null | .str "JWT" | .str "at+jwt" => .ok (algorithm, keyId)
      | .arr _ | .obj _ => .error ⟨.typeError, "unhashable type"⟩
      | _ => .error (failed "token header is not permitted")
    else .error (failed "token header is not permitted")
  | _, _, _ => .error (failed "token header is not permitted")

/-- Subject, tenant and grant version of a token. -/
def authorityClaims (configuration : IssuerConfiguration) (claims : Claims) :
    Except Error (String × String × Int) :=
  match claims.get "sub", claims.get configuration.tenantClaim,
      claims.get configuration.grantVersionClaim with
  | .str subjectId, .str tenantId, .int grantVersion =>
    if grantVersion < 1 then .error (failed "required authority claims are invalid")
    else .ok (subjectId, tenantId, grantVersion)
  | _, _, _ => .error (failed "required authority claims are invalid")

/-! ## Authentication -/

/-- `sorted(grants, key=lambda grant: (grant.purpose, grant.role, grant.grant_id))`. -/
def sortedGrants (grants : List GrantRecord) : List GrantRecord :=
  grants.insertionSort fun a b => a.purpose.val < b.purpose.val ∨ a.purpose = b.purpose ∧
    (a.role.val < b.role.val ∨ a.role = b.role ∧ a.grantId.val ≤ b.grantId.val)

/-- The binding of a grant. -/
def GrantRecord.binding (grant : GrantRecord) : GrantBinding :=
  ⟨grant.role, grant.purpose, (sortedSet (permissionsFor grant.role.val)), grant.riskCeiling,
    grant.expiresAt⟩

/-- The loop over the grants. -/
def bindGrants (now : Datetime) : List GrantRecord → Except Error (List GrantBinding)
  | [] => .ok []
  | grant :: grants =>
    if grant.status ≠ .active ∨ grant.expiresAt ≤ now then
      .error (failed "identity repository returned stale grant")
    else if permissionsFor grant.role.val = [] then .error (failed "grant refers to an unknown role")
    else do
      let bindings ← bindGrants now grants
      pure (grant.binding :: bindings)

/-- `min(a, *rest)`: the first of the smallest. -/
def earliest (a : Datetime) (rest : List Datetime) : Datetime :=
  rest.foldl (fun least d => if d < least then d else least) a

/-- The configuration of an issuer that is trusted. -/
def configurationOf (configurations : List IssuerConfiguration) (issuer : Json) :
    Option IssuerConfiguration :=
  match issuer with
  | .str name => configurations.find? fun configuration => decide (configuration.issuer.val = name)
  | _ => none

/-- `required`: the claims a token must have. -/
def requiredClaims : List String := ["aud", "exp", "iat", "iss", "sub"]

/-- The second half of `authenticate`: principal, tenant and grants of verified claims. -/
def resolve (configuration : IssuerConfiguration) (claims : Claims) (issuedAt expiresAt : Datetime)
    (requestId traceId : String) : Auth IdentityContext := do
  let (subjectId, tenantId, grantVersion) ← Exec.lift (authorityClaims configuration claims)
  let principal ← ask fun n =>
    (world.identities n).resolvePrincipal tenantId configuration.issuer.val subjectId
  match principal with
  | none => Exec.raise (failed "principal or grants are not current")
  | some principal => do
    Exec.require (principal.status = .active ∧ principal.tenantId.val = tenantId ∧
      (principal.grantVersion : Int) = grantVersion) (failed "principal or grants are not current")
    let tenant ← ask fun n => (world.identities n).getTenant principal.tenantId
    Exec.require (tenant.any (fun tenant => decide (tenant.status = .active)) = true)
      (failed "tenant is not active")
    let now ← ask world.clock
    let found ← ask fun n => (world.identities n).activeGrants principal now
    let grants := sortedGrants found
    Exec.require (grants ≠ []) (failed "principal has no current grant")
    let bindings ← Exec.lift (bindGrants now grants)
    Exec.lift (IdentityFields.build
      { principal, roles := sortedSet (bindings.map fun binding => binding.role),
        permissions := sortedSet (bindings.flatMap fun binding => binding.permissions),
        purposes := sortedSet (bindings.map fun binding => binding.purpose), grants := bindings,
        authenticatedAt := issuedAt,
        expiresAt := earliest expiresAt (grants.map fun grant => grant.expiresAt), requestId, traceId })

/-- `authenticate`. -/
def authenticate (configurations : List IssuerConfiguration) (token requestId traceId : String) :
    Auth IdentityContext := do
  Exec.require (token ≠ "" ∧ token.toList.length ≤ 16384 ∧ token.toList.any isSpace = false)
    (failed "bearer token is invalid")
  match jwt.unverifiedHeader token, jwt.unverified token with
  | some header, some unverified =>
    match configurationOf configurations (unverified.get "iss") with
    | none => Exec.raise (failed "token issuer is not trusted")
    | some configuration => do
      let (algorithm, keyId) ← Exec.lift (headerPermitted configuration header)
      let key ← verificationKey jwt world configuration keyId algorithm
      match jwt.decode token key [algorithm] configuration.audiences configuration.issuer.val
          requiredClaims with
      | none => Exec.raise (failed "bearer token validation failed")
      | some claims => do
        let (issuedAt, expiresAt) ← validateTimes jwt world claims configuration
        resolve world configuration claims issuedAt expiresAt requestId traceId
  | _, _ => Exec.raise (failed "bearer token is malformed")

end Authenticate

end Access

end Aegis
