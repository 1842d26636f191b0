/-
  THE RECORDS OF INTEROPERABILITY: peers and their trust, and the digests of protocol documents.

  A document that is digested is bounded first: its depth, the size of its arrays and objects, and its
  texts, which come from outside.  So `digest_value` may RAISE (`digestValue`), and whoever takes a
  digest of what a peer sent must be ready for it.

  Unicode normalization is a parameter (`Texts`): whether a text is in normal form C already.
-/
import Mathlib
import Aegis.Domain

namespace Aegis

namespace Interop

/-! ## Errors -/

/-- The exception classes raised here, by the code or by a transport. -/
inductive FailureKind where
  | policyDenied | payloadRejected | repositoryUnavailable | idempotencyConflict | integrityFailure
  | concurrencyConflict | reconciliationRequired | valueError | validationError
  | ambiguousTransportError | timeoutError | connectionError | other
deriving DecidableEq, Repr

structure Failure where
  kind : FailureKind
  message : String
deriving DecidableEq, Repr

/-! ## Enumerations -/

inductive ProtocolKind where
  | mcp | a2a
deriving DecidableEq, Repr

def ProtocolKind.value : ProtocolKind → String
  | .mcp => "mcp"
  | .a2a => "a2a"

inductive TransportKind where
  | stdio | streamableHttp | jsonRpcHttp | grpc
deriving DecidableEq, Repr

def TransportKind.value : TransportKind → String
  | .stdio => "stdio"
  | .streamableHttp => "streamable-http"
  | .jsonRpcHttp => "json-rpc-http"
  | .grpc => "grpc"

inductive TrustTier where
  | internal | partner | restricted
deriving DecidableEq, Repr

def TrustTier.value : TrustTier → String
  | .internal => "internal"
  | .partner => "partner"
  | .restricted => "restricted"

inductive TrustStatus where
  | pendingReview | active | quarantined | revoked | expired | emergencyDisabled
deriving DecidableEq, Repr

def TrustStatus.value : TrustStatus → String
  | .pendingReview => "pending-review"
  | .active => "active"
  | .quarantined => "quarantined"
  | .revoked => "revoked"
  | .expired => "expired"
  | .emergencyDisabled => "emergency-disabled"

inductive DataClassification where
  | publicData | internal | confidential | restricted
deriving DecidableEq, Repr

def DataClassification.value : DataClassification → String
  | .publicData => "public"
  | .internal => "internal"
  | .confidential => "confidential"
  | .restricted => "restricted"

inductive TaskState where
  | submitted | working | inputRequired | completed | failed | cancelled | reconciliationRequired
  | quarantined
deriving DecidableEq, Repr

inductive Environment where
  | development | test | staging | production
deriving DecidableEq, Repr

def Environment.value : Environment → String
  | .development => "development"
  | .test => "test"
  | .staging => "staging"
  | .production => "production"

/-! ## Documents -/

/-- What is known of texts: whether one is normalized (form C). -/
structure Texts where
  normalized : String → Bool

/-- `_FORBIDDEN_BIDI`. -/
def forbiddenBidi : List Nat :=
  [0x061c, 0x200e, 0x200f, 0x202a, 0x202b, 0x202c, 0x202d, 0x202e, 0x2066, 0x2067, 0x2068, 0x2069]

/-- A control character that a text may not hold: category `Cc`, less newline, return and tab. -/
def forbiddenControl (c : Char) : Bool :=
  (c.toNat < 32 || (127 ≤ c.toNat && c.toNat < 160)) && c ∉ ['\n', '\r', '\t']

/-- `MAX_PROTOCOL_TEXT_CHARS`. -/
def maxProtocolTextChars : Nat := 16384

/-- `validate_untrusted_text`. -/
def validateUntrustedText (texts : Texts) (value : String) : Except Failure Unit :=
  if texts.normalized value = false then
    .error ⟨.valueError, "protocol text must already use NFC normalization"⟩
  else if value.toList.any fun c => c.toNat ∈ forbiddenBidi then
    .error ⟨.valueError, "protocol text contains bidirectional control characters"⟩
  else if value.toList.any forbiddenControl then
    .error ⟨.valueError, "protocol text contains a control character"⟩
  else if maxProtocolTextChars < value.length then
    .error ⟨.valueError, "protocol text exceeds its bound"⟩
  else .ok ()

/-- A float that `math.isfinite` accepts. -/
def finite (x : FloatText) : Bool := x.text.all fun c => c ∉ ['I', 'N']

mutual

/-- `_normalize_json` of a value that is JSON already: it changes nothing, and may raise. -/
def normalizeJson (depth : Nat) (value : Json) : Except Failure Unit :=
  if 12 < depth then .error ⟨.payloadRejected, "protocol JSON exceeds the nesting bound"⟩
  else match value with
    | .float x =>
      if finite x = false then
        .error ⟨.payloadRejected, "protocol JSON contains a non-finite number"⟩
      else .ok ()
    | .arr items => normalizeItems (depth + 1) items
    | .obj fields => normalizeFields (depth + 1) fields
    | _ => .ok ()

def normalizeItems (depth : Nat) : List Json → Except Failure Unit
  | [] => .ok ()
  | item :: items => do
    normalizeJson depth item
    normalizeItems depth items

def normalizeFields (depth : Nat) : List (String × Json) → Except Failure Unit
  | [] => .ok ()
  | (_, value) :: fields => do
    normalizeJson depth value
    normalizeFields depth fields

end

mutual

/-- `_bound_json`. -/
def boundJson (texts : Texts) (depth : Nat) (value : Json) : Except Failure Unit :=
  if 12 < depth then .error ⟨.payloadRejected, "protocol JSON exceeds the nesting bound"⟩
  else match value with
    | .str s => validateUntrustedText texts s
    | .arr items =>
      if 256 < items.length then
        .error ⟨.payloadRejected, "protocol JSON array exceeds the item bound"⟩
      else boundItems texts (depth + 1) items
    | .obj fields =>
      if 128 < fields.length then
        .error ⟨.payloadRejected, "protocol JSON object exceeds the member bound"⟩
      else boundFields texts (depth + 1) fields
    | _ => .ok ()

def boundItems (texts : Texts) (depth : Nat) : List Json → Except Failure Unit
  | [] => .ok ()
  | item :: items => do
    boundJson texts depth item
    boundItems texts depth items

def boundFields (texts : Texts) (depth : Nat) : List (String × Json) → Except Failure Unit
  | [] => .ok ()
  | (key, value) :: fields => do
    if 128 < key.length then
      .error ⟨.payloadRejected, "protocol JSON key is invalid"⟩
    else do
      validateUntrustedText texts key
      boundJson texts depth value
      boundFields texts depth fields

end

/-- `canonical_json`: the text of a document within its bounds. -/
def canonicalDocument (texts : Texts) (value : Json) : Except Failure String := do
  normalizeJson 0 value
  boundJson texts 0 value
  .ok (canonicalJson value)

/-- `digest_value`. -/
def digestValue (sha : Sha256) (texts : Texts) (value : Json) : Except Failure Digest := do
  let text ← canonicalDocument texts value
  .ok (sha.hexdigest text)

/-! ## Documents within their bounds -/

/-- A printable ASCII character. -/
def printable (c : Char) : Bool := 32 ≤ c.toNat && c.toNat < 127

/-- Unicode leaves printable ASCII texts as they are. -/
def Texts.Lawful (texts : Texts) : Prop :=
  ∀ s : String, s.toList.all printable = true → texts.normalized s = true

section Bounds

variable {sha : Sha256} {texts : Texts}

theorem forbidden_of_printable {c : Char} (h : printable c = true) :
    c.toNat ∉ forbiddenBidi ∧ forbiddenControl c = false := by
  simp only [printable, Bool.and_eq_true, decide_eq_true_eq] at h
  refine ⟨fun hmem => ?_, ?_⟩
  · simp only [forbiddenBidi, List.mem_cons, List.not_mem_nil, or_false] at hmem
    omega
  · unfold forbiddenControl
    rw [Bool.and_eq_false_iff]
    left
    rw [Bool.or_eq_false_iff, Bool.and_eq_false_iff]
    exact ⟨decide_eq_false (by omega), .inl (decide_eq_false (by omega))⟩

theorem validateUntrustedText_ok {s : String} (htexts : texts.Lawful)
    (hs : s.toList.all printable = true) (hlength : s.length ≤ maxProtocolTextChars) :
    validateUntrustedText texts s = .ok () := by
  have hchars : ∀ c ∈ s.toList, c.toNat ∉ forbiddenBidi ∧ forbiddenControl c = false :=
    fun c hc => forbidden_of_printable (List.all_eq_true.mp hs c hc)
  unfold validateUntrustedText
  rw [if_neg (by rw [htexts s hs]; decide), if_neg, if_neg, if_neg (Nat.not_lt.mpr hlength)]
  · rw [List.any_eq_true]
    rintro ⟨c, hc, hcontrol⟩
    rw [(hchars c hc).2] at hcontrol
    cases hcontrol
  · rw [List.any_eq_true]
    rintro ⟨c, hc, hbidi⟩
    exact (hchars c hc).1 (of_decide_eq_true hbidi)

theorem printable_of_alphanum {c : Char} (h : c.isAlphanum = true) : printable c = true := by
  have hval : c.toNat = c.val.toNat := rfl
  simp only [Char.isAlphanum, Char.isAlpha, Char.isUpper, Char.isLower, Char.isDigit,
    Bool.or_eq_true, Bool.and_eq_true, decide_eq_true_eq, UInt32.le_iff_toNat_le, ge_iff_le] at h
  have hA : 'A'.val.toNat = 65 := rfl
  have hZ : 'Z'.val.toNat = 90 := rfl
  have ha : 'a'.val.toNat = 97 := rfl
  have hz : 'z'.val.toNat = 122 := rfl
  have h0 : '0'.val.toNat = 48 := rfl
  have h9 : '9'.val.toNat = 57 := rfl
  simp only [printable, Bool.and_eq_true, decide_eq_true_eq]
  omega

theorem printable_of_identifierChar {c : Char} (h : identifierChar c = true) : printable c = true := by
  simp only [identifierChar, Bool.or_eq_true, beq_iff_eq] at h
  rcases h with (((h | rfl) | rfl) | rfl) | rfl
  · exact printable_of_alphanum h
  · decide
  · decide
  · decide
  · decide

/-- Identifiers are protocol texts. -/
theorem validate_identifier {s : String} (htexts : texts.Lawful) (hs : isIdentifier s = true) :
    validateUntrustedText texts s = .ok () := by
  simp only [isIdentifier, isReference, Bool.and_eq_true, decide_eq_true_eq] at hs
  refine validateUntrustedText_ok htexts ?_ ?_
  · exact List.all_eq_true.mpr fun c hc => printable_of_identifierChar (List.all_eq_true.mp hs.2 c hc)
  · rw [← String.length_toList]
    exact le_trans hs.1.2 (by decide)

/-- Digests are identifiers. -/
theorem isIdentifier_digest (d : Digest) : isIdentifier d.val = true := by
  have hd := d.property
  simp only [isDigest, Bool.and_eq_true, decide_eq_true_eq] at hd
  simp only [isIdentifier, isReference, Bool.and_eq_true, decide_eq_true_eq]
  refine ⟨⟨by omega, by omega⟩, ?_⟩
  exact List.all_eq_true.mpr fun c hc => identifierChar_of_hexChar (List.all_eq_true.mp hd.2 c hc)

/-- A value without parts, within the bounds. -/
def Scalar (texts : Texts) : Json → Prop
  | .str s => validateUntrustedText texts s = .ok ()
  | .int _ => True
  | _ => False

/-- A short printable key. -/
def plainKey (key : String) : Bool := key.toList.all printable && decide (key.length ≤ 128)

/-- The fields of an object whose values have no parts. -/
def Flat (texts : Texts) (fields : List (String × Json)) : Prop :=
  fields.length ≤ 128 ∧ ∀ f ∈ fields, plainKey f.1 = true ∧ Scalar texts f.2

theorem Scalar.normalize {v : Json} (h : Scalar texts v) {depth : Nat} (hdepth : depth ≤ 12) :
    normalizeJson depth v = .ok () := by
  unfold normalizeJson
  rw [if_neg (Nat.not_lt.mpr hdepth)]
  cases v with
  | str s => rfl
  | int i => rfl
  | null => exact h.elim
  | bool b => exact h.elim
  | float x => exact h.elim
  | arr xs => exact h.elim
  | obj fields => exact h.elim

theorem Scalar.bound {v : Json} (h : Scalar texts v) {depth : Nat} (hdepth : depth ≤ 12) :
    boundJson texts depth v = .ok () := by
  unfold boundJson
  rw [if_neg (Nat.not_lt.mpr hdepth)]
  cases v with
  | str s => exact h
  | int i => rfl
  | null => exact h.elim
  | bool b => exact h.elim
  | float x => exact h.elim
  | arr xs => exact h.elim
  | obj fields => exact h.elim

theorem normalizeFields_ok {depth : Nat} {fields : List (String × Json)}
    (h : ∀ f ∈ fields, normalizeJson depth f.2 = .ok ()) : normalizeFields depth fields = .ok () := by
  induction fields with
  | nil => unfold normalizeFields; rfl
  | cons f fields ih =>
    unfold normalizeFields
    rw [h f List.mem_cons_self]
    exact ih fun g hg => h g (List.mem_cons_of_mem _ hg)

theorem boundFields_ok (htexts : texts.Lawful) {depth : Nat} {fields : List (String × Json)}
    (h : ∀ f ∈ fields, plainKey f.1 = true ∧ boundJson texts depth f.2 = .ok ()) :
    boundFields texts depth fields = .ok () := by
  induction fields with
  | nil => unfold boundFields; rfl
  | cons f fields ih =>
    obtain ⟨hkey, hvalue⟩ := h f List.mem_cons_self
    simp only [plainKey, Bool.and_eq_true, decide_eq_true_eq] at hkey
    unfold boundFields
    rw [if_neg (Nat.not_lt.mpr hkey.2),
      validateUntrustedText_ok htexts hkey.1 (le_trans hkey.2 (by decide)), hvalue]
    exact ih fun g hg => h g (List.mem_cons_of_mem _ hg)

theorem Flat.normalize {fields : List (String × Json)} (h : Flat texts fields) {depth : Nat}
    (hdepth : depth < 12) : normalizeJson depth (.obj fields) = .ok () := by
  unfold normalizeJson
  rw [if_neg (by omega)]
  exact normalizeFields_ok fun f hf => (h.2 f hf).2.normalize hdepth

theorem Flat.bound {fields : List (String × Json)} (htexts : texts.Lawful) (h : Flat texts fields)
    {depth : Nat} (hdepth : depth < 12) : boundJson texts depth (.obj fields) = .ok () := by
  unfold boundJson
  rw [if_neg (by omega)]
  show (if 128 < fields.length then _ else boundFields texts (depth + 1) fields) = _
  rw [if_neg (Nat.not_lt.mpr h.1)]
  exact boundFields_ok htexts fun f hf => ⟨(h.2 f hf).1, (h.2 f hf).2.bound hdepth⟩

/-- The digest of a document that is within its bounds. -/
theorem digestValue_ok {v : Json} (hnormal : normalizeJson 0 v = .ok ())
    (hbound : boundJson texts 0 v = .ok ()) :
    digestValue sha texts v = .ok (sha.hexdigest (canonicalJson v)) := by
  unfold digestValue canonicalDocument
  rw [hnormal]
  show (boundJson texts 0 v >>= _) >>= _ = _
  rw [hbound]
  rfl

end Bounds

/-! ## Trust -/

/-- `TrustEntry`.  A copy is not validated again, so the reviewers of a copy are any texts. -/
structure TrustEntry where
  peerId : Identifier
  protocol : ProtocolKind
  ownerRef : Identifier
  environment : Environment
  trustTier : TrustTier
  status : TrustStatus
  revision : Nat
  expiresAt : Datetime
  reviewAfter : Datetime
  cardDigest : Option Digest
  schemaDigest : Digest
  certificateDigest : Option Digest
  keyDigest : Option Digest
  allowedClassifications : List DataClassification
  allowedRisks : List RiskLevel
  allowedCapabilities : List Identifier
  allowedTransports : List TransportKind
  egressOrigins : List String
  maximumRequestBytes : Nat
  maximumResponseBytes : Nat
  maximumRequestsPerMinute : Nat
  maximumCostUnitsPerHour : Nat
  changeDigest : Digest
  reviewedBy : List String
  reviewedAt : Option Datetime

def riskValue : RiskLevel → String
  | .low => "low"
  | .medium => "medium"
  | .high => "high"

/-- `None` or the text. -/
def optionalText {α : Type} (text : α → String) : Option α → Json
  | none => .null
  | some a => .str (text a)

/-- `entry.model_dump(mode="json")`. -/
def TrustEntry.modelDump (e : TrustEntry) : Json :=
  .obj [("schema_version", .int 1), ("peer_id", .str e.peerId.val),
    ("protocol", .str e.protocol.value), ("owner_ref", .str e.ownerRef.val),
    ("environment", .str e.environment.value), ("trust_tier", .str e.trustTier.value),
    ("status", .str e.status.value), ("revision", .int e.revision),
    ("expires_at", .str e.expiresAt.jsonText), ("review_after", .str e.reviewAfter.jsonText),
    ("card_digest", optionalText Subtype.val e.cardDigest),
    ("schema_digest", .str e.schemaDigest.val),
    ("certificate_digest", optionalText Subtype.val e.certificateDigest),
    ("key_digest", optionalText Subtype.val e.keyDigest),
    ("allowed_classifications", .arr (e.allowedClassifications.map fun c => .str c.value)),
    ("allowed_risks", .arr (e.allowedRisks.map fun r => .str (riskValue r))),
    ("allowed_capabilities", .arr (e.allowedCapabilities.map fun c => .str c.val)),
    ("allowed_transports", .arr (e.allowedTransports.map fun t => .str t.value)),
    ("egress_origins", .arr (e.egressOrigins.map .str)),
    ("maximum_request_bytes", .int e.maximumRequestBytes),
    ("maximum_response_bytes", .int e.maximumResponseBytes),
    ("maximum_requests_per_minute", .int e.maximumRequestsPerMinute),
    ("maximum_cost_units_per_hour", .int e.maximumCostUnitsPerHour),
    ("change_digest", .str e.changeDigest.val), ("reviewed_by", .arr (e.reviewedBy.map .str)),
    ("reviewed_at", optionalText Datetime.jsonText e.reviewedAt)]

end Interop

end Aegis
