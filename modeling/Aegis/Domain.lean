/-
  DOMAIN VALUES SHARED BY EVERY COMPONENT.

  Identifiers and digests carry the proof of their own pattern, so a model built from them cannot
  hold an ill-formed reference.  `Sha256` is the hash function as a PARAMETER: any function into 64
  lower-case hexadecimal digits.  Results that need more ask for it where they need it, as
  `CollisionFree` on the texts that are really hashed; on ALL texts no such function exists.

  `stableId` is the source's derived identifier: a kind, a colon, and the first digits of the
  digest of the parts joined by NUL.  The parts are identifiers, which hold no NUL, so the joined
  text determines them (`joinParts_inj`).
-/
import Mathlib
import Aegis.Lib.Json
import Aegis.Lib.Datetime

namespace Aegis

/-! ## Errors -/

/-- The exception classes the modelled code raises. -/
inductive ErrorKind where
  | valueError | typeError | keyError | indexError | validationError
  | policyDenied | budgetExhausted | modelProviderError | reconciliationRequired
  | approvalDenied | approvalExpired | approvalRevoked | effectsDisabled | effectConflict
  | effectAmbiguous | verificationFailed
  | idempotencyConflict | concurrencyConflict | integrityFailure | messageClaimConflict
  | payloadRejected | ambiguousTransportError
  | sandboxRejected | sandboxUnavailable | sandboxAmbiguous
  | authenticationFailed | identityUnavailable | evidenceIsolationViolation | evidenceUnavailable
  | connectorRejected | orchestrationFailure
deriving DecidableEq, Repr

/-- An exception: its class and its message.  The message of a model's `ValidationError` is the
    place it names, as `Model.field`. -/
structure Error where
  kind : ErrorKind
  message : String
deriving DecidableEq, Repr

/-- A `ValidationError` at a field of a model. -/
def validationError (place : String) : Error := ⟨.validationError, place⟩

/-! ## Identifiers -/

/-- `[a-zA-Z0-9._:-]`. -/
def identifierChar (c : Char) : Bool :=
  c.isAlphanum || c == '.' || c == '_' || c == ':' || c == '-'

/-- One to `bound` identifier characters. -/
def isReference (bound : Nat) (s : String) : Bool :=
  let cs := s.toList
  decide (1 ≤ cs.length) && decide (cs.length ≤ bound) && cs.all identifierChar

/-- `Identifier`: `^[a-zA-Z0-9._:-]+$`, at most 128 characters. -/
def isIdentifier (s : String) : Bool := isReference 128 s

abbrev Identifier := { s : String // isIdentifier s = true }

instance : LawfulBEq Identifier := inferInstance

/-- The answer of a check, computed. -/
theorem computed : true = true := rfl

/-- Attempts are counted from one to sixteen. -/
theorem first_attempt : 1 ≤ 1 ∧ 1 ≤ 16 := by decide

theorem second_attempt : 1 ≤ 2 ∧ 2 ≤ 16 := by decide

/-- `OpaqueReference`: `^[a-zA-Z0-9._:-]+$`, at most 512 characters. -/
abbrev OpaqueReference := { s : String // isReference 512 s = true }

/-- Validation of an `Identifier` field. -/
def Identifier.parse (place : String) (s : String) : Except Error Identifier :=
  if h : isIdentifier s = true then .ok ⟨s, h⟩ else .error (validationError place)

theorem Identifier.parse_ok {place s : String} {i : Identifier}
    (h : Identifier.parse place s = .ok i) : i.val = s := by
  unfold Identifier.parse at h
  split at h
  · rw [← Except.ok.inj h]
  · cases h

theorem Identifier.parse_of {place s : String} (h : isIdentifier s = true) :
    Identifier.parse place s = .ok ⟨s, h⟩ := dif_pos h

theorem Identifier.parse_val (place : String) (i : Identifier) : Identifier.parse place i.val = .ok i :=
  Identifier.parse_of i.property

/-- The character that joins the parts of a derived identifier. -/
def nul : Char := Char.ofNat 0

/-- A text without the joining character. -/
def NulFree (s : String) : Prop := nul ∉ s.toList

theorem nulFree_of_all {p : Char → Bool} {s : String} (h : s.toList.all p = true)
    (hp : p nul = false) : NulFree s := by
  intro hmem
  rw [List.all_eq_true.mp h nul hmem] at hp
  exact absurd hp (by decide)

theorem Identifier.nulFree (i : Identifier) : NulFree i.val := by
  have h := i.property
  simp only [isIdentifier, isReference, Bool.and_eq_true] at h
  exact nulFree_of_all h.2 (by decide)

theorem nulFree_repr (n : Nat) : NulFree n.repr := by
  intro hmem
  have hdigit := natRepr_isDigit hmem
  revert hdigit
  decide

/-- `SubjectIdentifier`: `^[\x21-\x7e]+$`, at most 255 characters. -/
def subjectChar (c : Char) : Bool := decide (33 ≤ c.toNat) && decide (c.toNat ≤ 126)

def isSubject (s : String) : Bool :=
  let cs := s.toList
  decide (1 ≤ cs.length) && decide (cs.length ≤ 255) && cs.all subjectChar

abbrev SubjectIdentifier := { s : String // isSubject s = true }

/-- The characters of a host, port included: `[a-zA-Z0-9._:-]`; of a path: these, `~` and `/`. -/
def pathChar (c : Char) : Bool := identifierChar c || c == '~' || c == '/'

/-- What follows the scheme of an issuer: an alphanumeric character, host characters, and perhaps a
    path that starts with a slash. -/
def isAuthority (cs : List Char) : Bool :=
  match cs with
  | [] => false
  | c :: rest => c.isAlphanum && (rest.dropWhile identifierChar).all pathChar
      && (match rest.dropWhile identifierChar with | [] => true | d :: _ => d == '/')

def httpScheme : List Char := ['h', 't', 't', 'p', ':', '/', '/']

def httpsScheme : List Char := ['h', 't', 't', 'p', 's', ':', '/', '/']

/-- `Issuer`: 8 to 512 characters, `^https?://` and an authority. -/
def isIssuer (s : String) : Bool :=
  let cs := s.toList
  decide (8 ≤ cs.length) && decide (cs.length ≤ 512) && cs.all pathChar
    && ((httpScheme.isPrefixOf cs && isAuthority (cs.drop 7))
      || (httpsScheme.isPrefixOf cs && isAuthority (cs.drop 8)))

abbrev Issuer := { s : String // isIssuer s = true }

/-! ## Digests -/

/-- `[a-f0-9]`. -/
def hexChar (c : Char) : Bool := c.isDigit || (decide (97 ≤ c.toNat) && decide (c.toNat ≤ 102))

/-- `^[a-f0-9]{64}$`. -/
def isDigest (s : String) : Bool :=
  let cs := s.toList
  decide (cs.length = 64) && cs.all hexChar

/-- `Sha256Digest`. -/
abbrev Digest := { s : String // isDigest s = true }

instance : LawfulBEq Digest := inferInstance

theorem Digest.nulFree (d : Digest) : NulFree d.val := by
  have h := d.property
  simp only [isDigest, Bool.and_eq_true] at h
  exact nulFree_of_all h.2 (by decide)

theorem isDigest_ofList {cs : List Char} (hlen : cs.length = 64) (hhex : cs.all hexChar = true) :
    isDigest (String.ofList cs) = true := by
  simp only [isDigest, String.toList_ofList, hlen, hhex, decide_true, Bool.and_self]

/-- SHA-256 as a parameter: from a text to the 64 hexadecimal digits of `hexdigest()`. -/
structure Sha256 where
  digits : String → List Char
  length : ∀ s, (digits s).length = 64
  hex : ∀ s, (digits s).all hexChar = true

/-- `sha256(text.encode()).hexdigest()`. -/
def Sha256.hexdigest (sha : Sha256) (text : String) : Digest :=
  ⟨String.ofList (sha.digits text), isDigest_ofList (sha.length text) (sha.hex text)⟩

/-- A hash for worked examples that hash one text, or whose course does not depend on the digests. -/
def Sha256.constant : Sha256 where
  digits := fun _ => List.replicate 64 'a'
  length := fun _ => by decide
  hex := fun _ => by decide

/-- No two of the `texts` have digests that agree on their first 24 digits (the fewest any derived
    identifier keeps). -/
def Sha256.CollisionFree (sha : Sha256) (texts : Set String) : Prop :=
  ∀ n, 24 ≤ n → Set.InjOn (fun text => (sha.digits text).take n) texts

theorem Sha256.CollisionFree.hexdigest {sha : Sha256} {texts : Set String}
    (h : sha.CollisionFree texts) {a b : String} (ha : a ∈ texts) (hb : b ∈ texts)
    (hab : sha.hexdigest a = sha.hexdigest b) : a = b := by
  refine h 64 (by decide) ha hb ?_
  show (sha.digits a).take 64 = (sha.digits b).take 64
  rw [String.ofList_inj.mp (Subtype.mk.inj hab)]

/-- Every hash is collision free on one text. -/
theorem Sha256.CollisionFree.of_subsingleton {sha : Sha256} {texts : Set String}
    (h : texts.Subsingleton) : sha.CollisionFree texts := fun _ _ => h.injOn _

/-- A hash is collision free on two texts whose digests begin differently. -/
theorem Sha256.CollisionFree.of_pair {sha : Sha256} {a b : String}
    (h : (sha.digits a).head? ≠ (sha.digits b).head?) : sha.CollisionFree {a, b} := by
  intro n hn x hx y hy hxy
  have hhead : (sha.digits x).head? = (sha.digits y).head? := by
    have htake := congrArg List.head? hxy
    rwa [List.head?_take, List.head?_take, if_neg (by omega), if_neg (by omega)] at htake
  rcases hx with rfl | rfl
  · rcases hy with rfl | rfl
    · rfl
    · exact absurd hhead h
  · rcases hy with rfl | rfl
    · exact absurd hhead.symm h
    · rfl

/-- A hash for worked examples that tells texts apart by one of their characters. -/
def Sha256.byChar (place : Nat) : Sha256 where
  digits := fun text => List.replicate 64 (hexDigit ((text.toList.getD place 'a').toNat % 16))
  length := fun _ => List.length_replicate
  hex := fun text => by
    have hdigit : ∀ n, n < 16 → hexChar (hexDigit n) = true := by decide
    rw [List.all_replicate, if_neg (by decide)]
    exact hdigit _ (Nat.mod_lt _ (by decide))

/-- A hash for worked examples that tell texts apart: the place of a text in a list of fewer than
    sixteen, or the first place after it. -/
def Sha256.table (texts : List String) : Sha256 where
  digits := fun text => List.replicate 64 (hexDigit (texts.idxOf text % 16))
  length := fun _ => List.length_replicate
  hex := fun text => by
    have hdigit : ∀ n, n < 16 → hexChar (hexDigit n) = true := by decide
    rw [List.all_replicate, if_neg (by decide)]
    exact hdigit _ (Nat.mod_lt _ (by decide))

/-- Such a hash is collision free on the texts of its list, with one more text. -/
theorem Sha256.table_collisionFree {texts : List String} (hlen : texts.length < 16) (other : String)
    {set : Set String} (hset : ∀ x ∈ set, x ∈ texts ∨ x = other) :
    (Sha256.table texts).CollisionFree set := by
  intro n hn x hx y hy hxy
  have hidx : ∀ z : String, texts.idxOf z < 16 := fun z =>
    lt_of_le_of_lt List.idxOf_le_length hlen
  have hsame : texts.idxOf x = texts.idxOf y := by
    have hhead := congrArg List.head? hxy
    simp only [Sha256.table, List.take_replicate, List.head?_replicate] at hhead
    have hmin : min n 64 ≠ 0 := by omega
    rw [if_neg hmin, if_neg hmin, Nat.mod_eq_of_lt (hidx x), Nat.mod_eq_of_lt (hidx y)] at hhead
    have hval := congrArg hexVal (Option.some.inj hhead)
    rwa [hexVal_hexDigit _ (hidx x), hexVal_hexDigit _ (hidx y)] at hval
  rcases hset x hx with hx' | rfl
  · exact (List.idxOf_inj hx').mp hsame
  · rcases hset y hy with hy' | rfl
    · exact ((List.idxOf_inj hy').mp hsame.symm).symm
    · rfl

/-- `_ZERO_HASH`: the hash before the first record of a chain. -/
def zeroHash : Digest :=
  ⟨String.ofList (List.replicate 64 '0'), isDigest_ofList (by decide) (by decide)⟩

/-- `"\x00".join(parts)`. -/
def joinParts (parts : List String) : String :=
  String.ofList ([nul].intercalate (parts.map String.toList))

/-- `stable_id(kind, *parts, length=length)`. -/
def stableId (sha : Sha256) (kind : String) (parts : List String) (length : Nat) : String :=
  kind ++ ":" ++ String.ofList ((sha.digits (joinParts parts)).take length)

theorem identifierChar_of_hexChar {c : Char} (h : hexChar c = true) : identifierChar c = true := by
  simp only [hexChar, Bool.or_eq_true, Bool.and_eq_true, decide_eq_true_eq] at h
  have halpha : c.isAlphanum = true := by
    rcases h with h | h
    · simp only [Char.isAlphanum, h, Bool.or_true]
    · have h1 : 'a'.val ≤ c.val := UInt32.le_iff_toNat_le.mpr h.1
      have h2 : c.val ≤ 'z'.val := UInt32.le_iff_toNat_le.mpr (le_trans h.2 (by decide))
      simp only [Char.isAlphanum, Char.isAlpha, Char.isLower, ge_iff_le, h1, h2, decide_true,
        Bool.and_self, Bool.or_true, Bool.true_or]
  simp only [identifierChar, halpha, Bool.true_or]

/-- A derived identifier is well formed when its kind is. -/
theorem isIdentifier_stableId (sha : Sha256) {kind : String} (hkind : isReference 60 kind = true)
    (parts : List String) (length : Nat) : isIdentifier (stableId sha kind parts length) = true := by
  simp only [isReference, Bool.and_eq_true, decide_eq_true_eq] at hkind
  obtain ⟨⟨hlow, hhigh⟩, hchars⟩ := hkind
  have hdigits : ((sha.digits (joinParts parts)).take length).length ≤ 64 :=
    le_trans (List.length_take_le' _ _) (le_of_eq (sha.length _))
  have hhex : ((sha.digits (joinParts parts)).take length).all identifierChar = true := by
    refine List.all_eq_true.mpr (fun c hc => identifierChar_of_hexChar ?_)
    exact List.all_eq_true.mp (sha.hex _) c (List.mem_of_mem_take hc)
  simp only [isIdentifier, isReference, stableId, String.toList_append, String.toList_ofList,
    List.length_append, List.all_append, hchars, hhex, Bool.and_true, Bool.true_and,
    Bool.and_eq_true, decide_eq_true_eq]
  refine ⟨⟨by omega, ?_⟩, by decide⟩
  have hcolon : ":".toList.length = 1 := by decide
  omega

/-- `stable_id` where the result is used as an `Identifier`. -/
def stableIdentifier (sha : Sha256) (kind : String) (parts : List String) (length : Nat)
    (hkind : isReference 60 kind = true := by exact computed) : Identifier :=
  ⟨stableId sha kind parts length, isIdentifier_stableId sha hkind parts length⟩

/-- **The joined text determines its parts** when none of them holds a NUL. -/
theorem joinParts_inj {ps qs : List String} (hp : ∀ p ∈ ps, NulFree p) (hq : ∀ q ∈ qs, NulFree q)
    (hps : ps ≠ []) (hqs : qs ≠ []) (h : joinParts ps = joinParts qs) : ps = qs := by
  have hsplit : ∀ xs : List String, xs ≠ [] → (∀ x ∈ xs, NulFree x) →
      ([nul].intercalate (xs.map String.toList)).splitOn nul = xs.map String.toList := by
    intro xs hne hfree
    refine List.splitOn_intercalate nul ?_ (by simpa using hne)
    intro l hl
    obtain ⟨x, hx, rfl⟩ := List.mem_map.mp hl
    exact hfree x hx
  have htexts := congrArg (List.splitOn nul) (String.ofList_inj.mp h)
  rw [hsplit ps hps hp, hsplit qs hqs hq] at htexts
  exact List.map_injective_iff.mpr (fun a b hab => String.toList_inj.mp hab) htexts

theorem stableId_digits {sha : Sha256} {kind : String} {ps qs : List String} {n : Nat}
    (h : stableId sha kind ps n = stableId sha kind qs n) :
    (sha.digits (joinParts ps)).take n = (sha.digits (joinParts qs)).take n := by
  have hlist := congrArg String.toList h
  simp only [stableId, String.toList_append, String.toList_ofList] at hlist
  exact List.append_cancel_left hlist

/-- Derived identifiers of one kind agree only when their parts do. -/
theorem stableId_inj {sha : Sha256} {texts : Set String} (hfree : sha.CollisionFree texts)
    {kind : String} {ps qs : List String} {n : Nat} (hn : 24 ≤ n)
    (hp : ∀ p ∈ ps, NulFree p) (hq : ∀ q ∈ qs, NulFree q) (hps : ps ≠ []) (hqs : qs ≠ [])
    (hpt : joinParts ps ∈ texts) (hqt : joinParts qs ∈ texts)
    (h : stableId sha kind ps n = stableId sha kind qs n) : ps = qs :=
  joinParts_inj hp hq hps hqs (hfree n hn hpt hqt (stableId_digits h))

/-! ## JSON objects -/

/-- A `dict[str, JsonValue]`: distinct keys. -/
abbrev Fields := AList (fun _ : String => Json)

namespace Fields

/-- A dict literal, or a sequence of assignments: a later key replaces an earlier one. -/
def of (items : List (String × Json)) : Fields := items.foldl (fun d i => d.insert i.1 i.2) ∅

/-- `d.update(other)`. -/
def update (d : Fields) (items : List (String × Json)) : Fields :=
  items.foldl (fun d i => d.insert i.1 i.2) d

def toJson (d : Fields) : Json := .obj (d.entries.map fun e => (e.1, e.2))

/-- `dict(sorted(d.items()))`. -/
def sorted (d : Fields) : Fields where
  entries := d.entries.insertionSort (fun a b => a.1 ≤ b.1)
  nodupKeys := (List.perm_nodupKeys (List.perm_insertionSort _ _)).mpr d.nodupKeys

@[simp] theorem lookup_sorted (d : Fields) (k : String) : d.sorted.lookup k = d.lookup k :=
  AList.perm_lookup (List.perm_insertionSort _ _)

/-- Sorting the keys of a dict does not change it as a JSON value. -/
theorem toJson_sorted (d : Fields) : d.sorted.toJson.Same d.toJson := by
  refine Json.same_of_perm ((List.perm_insertionSort _ _).map _) ?_
  rw [List.map_map]
  exact d.sorted.nodupKeys

/-- The length in bytes of the canonical text. -/
def size (d : Fields) : Nat := (canonicalChars d.toJson).length

theorem size_sorted (d : Fields) : d.sorted.size = d.size := by
  rw [size, size, canonicalChars, canonicalChars, toJson_sorted]

theorem length_sorted (d : Fields) : d.sorted.entries.length = d.entries.length :=
  List.length_insertionSort _ _

end Fields

/-- `str(value)` where it can be an identifier: the text of an array or an object never is, since
    it has brackets. -/
def Json.pyStr : Json → Option String
  | .null => some "None"
  | .bool true => some "True"
  | .bool false => some "False"
  | .int i => some i.repr
  | .float x =>
    if x.text = ['N', 'a', 'N'] then some "nan"
    else if x.text = ['I', 'n', 'f', 'i', 'n', 'i', 't', 'y'] then some "inf"
    else if x.text = ['-', 'I', 'n', 'f', 'i', 'n', 'i', 't', 'y'] then some "-inf"
    else some (String.ofList x.text)
  | .str s => some s
  | .arr _ => none
  | .obj _ => none

/-- `str(value)` validated as an `Identifier`. -/
def Json.identifier? (v : Json) : Option Identifier :=
  match v.pyStr with
  | none => none
  | some s => if h : isIdentifier s = true then some ⟨s, h⟩ else none

/-! ## Identities and requests -/

inductive PrincipalKind where
  | human | workload
deriving DecidableEq, Repr

inductive RiskLevel where
  | low | medium | high
deriving DecidableEq, Repr

/-- An authenticated caller.  Grants, permissions and purposes are read by the authorization
    service only, not by the stores and services modelled here. -/
structure IdentityContext where
  tenantId : Identifier
  issuer : Issuer
  subjectId : SubjectIdentifier
  principalKind : PrincipalKind
  roles : List Identifier
  requestId : Identifier
  traceId : Identifier
deriving DecidableEq

/-- `stable_id("actor", issuer, subject_id, length=32)`. -/
def actorRef (sha : Sha256) (identity : IdentityContext) : Identifier :=
  stableIdentifier sha "actor" [identity.issuer.val, identity.subjectId.val] 32

/-- `CheckoutAlert`; its signal and service are constants. -/
structure CheckoutAlert where
  region : Identifier
  observedAt : Datetime
  failureRate : FloatText
  threshold : FloatText
deriving DecidableEq

structure InvestigationRequest where
  incidentId : Identifier
  alert : CheckoutAlert
deriving DecidableEq

/-- `request.model_dump(mode="json")`. -/
def InvestigationRequest.modelDump (request : InvestigationRequest) : Json :=
  .obj [("incident_id", .str request.incidentId.val),
    ("alert", .obj [("signal", .str "checkout_failure_rate"), ("service", .str "checkout-api"),
      ("region", .str request.alert.region.val),
      ("observed_at", .str request.alert.observedAt.jsonText),
      ("failure_rate", .float request.alert.failureRate),
      ("threshold", .float request.alert.threshold)])]

end Aegis
