/-
  EVALUATING THE WORKED VALUES.

  What the gateway asks of a text -- is it printable, is it an identifier -- is asked of its characters,
  and decoding those is most of the work when a run on worked values is evaluated.  An ASCII text has
  its characters as its bytes, so the questions can be put to the bytes.
-/
import Mathlib
import Aegis.Interop.Gateway

namespace Aegis

namespace Interop

/-! ## ASCII texts -/

/-- The bytes of a text. -/
def bytes (s : String) : List UInt8 := s.toByteArray.data.toList

theorem bytes_eq (s : String) : bytes s = s.toList.flatMap String.utf8EncodeChar := by
  unfold bytes
  rw [← String.utf8Encode_toList, List.utf8Encode, List.data_toByteArray]

theorem encode_ascii {c : Char} (h : c.toNat < 128) : String.utf8EncodeChar c = [UInt8.ofNat c.toNat] := by
  have hval : c.val.toNat ≤ 0x7f := Nat.le_of_lt_succ h
  simp only [String.utf8EncodeChar, if_pos hval]
  rfl

/-- The first byte of a character beyond ASCII is beyond ASCII. -/
theorem encode_beyond {c : Char} (h : 128 ≤ c.toNat) : ∃ b ∈ String.utf8EncodeChar c, 128 ≤ b.toNat := by
  have hval : ¬c.val.toNat ≤ 0x7f := by
    have : 128 ≤ c.val.toNat := h
    omega
  have hbound : c.val.toNat < 0x110000 := by
    rcases c.valid with hv | hv
    · exact lt_trans hv (by decide)
    · exact hv.2
  simp only [String.utf8EncodeChar, if_neg hval]
  split
  · refine ⟨_, List.mem_cons_self, ?_⟩
    rw [UInt8.toNat_ofNat']
    omega
  split
  · refine ⟨_, List.mem_cons_self, ?_⟩
    rw [UInt8.toNat_ofNat']
    omega
  · refine ⟨_, List.mem_cons_self, ?_⟩
    rw [UInt8.toNat_ofNat']
    omega

/-- A text whose bytes are all ASCII is made of ASCII characters, one for each byte. -/
theorem toList_of_ascii {s : String} (h : ∀ b ∈ bytes s, b.toNat < 128) :
    (∀ c ∈ s.toList, c.toNat < 128) ∧ bytes s = s.toList.map fun c => UInt8.ofNat c.toNat := by
  have hascii : ∀ c ∈ s.toList, c.toNat < 128 := by
    intro c hc
    by_contra hno
    obtain ⟨b, hb, hbeyond⟩ := encode_beyond (Nat.le_of_not_lt hno)
    have hmem : b ∈ bytes s := by
      rw [bytes_eq]
      exact List.mem_flatMap.mpr ⟨c, hc, hb⟩
    have := h b hmem
    omega
  refine ⟨hascii, ?_⟩
  rw [bytes_eq, List.map_eq_flatMap]
  exact List.flatMap_congr fun c hc => encode_ascii (hascii c hc)

/-- Every byte of a text is an ASCII character with a property. -/
def asciiAll (p : Char → Bool) (s : String) : Bool :=
  (bytes s).all fun b => decide (b.toNat < 128) && p (Char.ofNat b.toNat)

theorem asciiAll_iff {p : Char → Bool} {s : String} (h : asciiAll p s = true) :
    s.toList.all p = true ∧ s.length = (bytes s).length := by
  have hbytes : ∀ b ∈ bytes s, b.toNat < 128 ∧ p (Char.ofNat b.toNat) = true := by
    intro b hb
    simpa using List.all_eq_true.mp h b hb
  obtain ⟨hascii, heq⟩ := toList_of_ascii fun b hb => (hbytes b hb).1
  refine ⟨List.all_eq_true.mpr fun c hc => ?_, by rw [heq, List.length_map, String.length_toList]⟩
  have hmem : UInt8.ofNat c.toNat ∈ bytes s := by
    rw [heq]
    exact List.mem_map.mpr ⟨c, hc, rfl⟩
  have hp := (hbytes _ hmem).2
  have hnat : (UInt8.ofNat c.toNat).toNat = c.toNat := by
    have := hascii c hc
    rw [UInt8.toNat_ofNat']
    omega
  rwa [hnat, Char.ofNat_toNat] at hp

/-! ## Identifiers -/

/-- `isIdentifier`, of the bytes. -/
def identifierBytes (s : String) : Bool :=
  asciiAll identifierChar s && decide (1 ≤ (bytes s).length) && decide ((bytes s).length ≤ 128)

theorem isIdentifier_of_bytes {s : String} (h : identifierBytes s = true) : isIdentifier s = true := by
  simp only [identifierBytes, Bool.and_eq_true, decide_eq_true_eq] at h
  obtain ⟨hall, hlength⟩ := asciiAll_iff h.1.1
  simp only [isIdentifier, isReference, Bool.and_eq_true, decide_eq_true_eq, String.length_toList]
  exact ⟨⟨by omega, by omega⟩, hall⟩

theorem parseIdentifier_eq : parseIdentifier = fun place value =>
    if h : identifierBytes value = true then .ok ⟨value, isIdentifier_of_bytes h⟩
    else parseIdentifier place value := by
  funext place value
  by_cases h : identifierBytes value = true
  · rw [dif_pos h, parseIdentifier_of (isIdentifier_of_bytes h)]
  · rw [dif_neg h]

/-! ## Documents -/

/-- A printable ASCII text of at most 128 characters. -/
def shortText (s : String) : Bool := asciiAll printable s && decide ((bytes s).length ≤ 128)

theorem shortText_validates {s : String} (h : shortText s = true) :
    validateUntrustedText sampleTexts s = .ok () ∧ s.length ≤ 128 := by
  simp only [shortText, Bool.and_eq_true, decide_eq_true_eq] at h
  obtain ⟨hall, hlength⟩ := asciiAll_iff h.1
  refine ⟨validateUntrustedText_ok (fun _ _ => rfl) hall ?_, by omega⟩
  exact le_trans (by omega : s.length ≤ 128) (by decide)

mutual

/-- A document of short texts and integers, within the bounds. -/
def plainJson (depth : Nat) : Json → Bool
  | .null => decide (depth ≤ 12)
  | .bool _ => decide (depth ≤ 12)
  | .int _ => decide (depth ≤ 12)
  | .float _ => false
  | .str s => decide (depth ≤ 12) && shortText s
  | .arr items => decide (depth ≤ 12) && decide (items.length ≤ 128) && plainItems (depth + 1) items
  | .obj fields => decide (depth ≤ 12) && decide (fields.length ≤ 128) && plainFields (depth + 1) fields

def plainItems (depth : Nat) : List Json → Bool
  | [] => true
  | item :: items => plainJson depth item && plainItems depth items

def plainFields (depth : Nat) : List (String × Json) → Bool
  | [] => true
  | (key, value) :: fields => shortText key && plainJson depth value && plainFields depth fields

end

mutual

theorem plainJson_passes (depth : Nat) : ∀ v : Json, plainJson depth v = true →
    normalizeJson depth v = .ok () ∧ boundJson sampleTexts depth v = .ok ()
  | .null, h | .bool _, h | .int _, h => by
    have hdepth : ¬12 < depth := Nat.not_lt.mpr (of_decide_eq_true h)
    unfold normalizeJson boundJson
    constructor
    · rw [if_neg hdepth]
    · rw [if_neg hdepth]
  | .float _, h => Bool.noConfusion h
  | .str s, h => by
    simp only [plainJson, Bool.and_eq_true, decide_eq_true_eq] at h
    unfold normalizeJson boundJson
    rw [if_neg (Nat.not_lt.mpr h.1), if_neg (Nat.not_lt.mpr h.1)]
    exact ⟨rfl, (shortText_validates h.2).1⟩
  | .arr items, h => by
    simp only [plainJson, Bool.and_eq_true, decide_eq_true_eq] at h
    obtain ⟨hnormal, hbound⟩ := plainItems_passes (depth + 1) items h.2
    unfold normalizeJson boundJson
    rw [if_neg (Nat.not_lt.mpr h.1.1), if_neg (Nat.not_lt.mpr h.1.1)]
    refine ⟨hnormal, ?_⟩
    show (if 256 < items.length then _ else _) = _
    rw [if_neg (by omega)]
    exact hbound
  | .obj fields, h => by
    simp only [plainJson, Bool.and_eq_true, decide_eq_true_eq] at h
    obtain ⟨hnormal, hbound⟩ := plainFields_passes (depth + 1) fields h.2
    unfold normalizeJson boundJson
    rw [if_neg (Nat.not_lt.mpr h.1.1), if_neg (Nat.not_lt.mpr h.1.1)]
    refine ⟨hnormal, ?_⟩
    show (if 128 < fields.length then _ else _) = _
    rw [if_neg (by omega)]
    exact hbound

theorem plainItems_passes (depth : Nat) : ∀ items : List Json, plainItems depth items = true →
    normalizeItems depth items = .ok () ∧ boundItems sampleTexts depth items = .ok ()
  | [], _ => ⟨rfl, rfl⟩
  | item :: items, h => by
    simp only [plainItems, Bool.and_eq_true] at h
    obtain ⟨hnormal, hbound⟩ := plainJson_passes depth item h.1
    obtain ⟨hnormals, hbounds⟩ := plainItems_passes depth items h.2
    unfold normalizeItems boundItems
    exact ⟨except_bind_ok.mpr ⟨(), hnormal, hnormals⟩, except_bind_ok.mpr ⟨(), hbound, hbounds⟩⟩

theorem plainFields_passes (depth : Nat) : ∀ fields : List (String × Json),
    plainFields depth fields = true →
      normalizeFields depth fields = .ok () ∧ boundFields sampleTexts depth fields = .ok ()
  | [], _ => ⟨rfl, rfl⟩
  | (key, value) :: fields, h => by
    simp only [plainFields, Bool.and_eq_true] at h
    obtain ⟨htext, hkey⟩ := shortText_validates h.1.1
    obtain ⟨hnormal, hbound⟩ := plainJson_passes depth value h.1.2
    obtain ⟨hnormals, hbounds⟩ := plainFields_passes depth fields h.2
    unfold normalizeFields boundFields
    refine ⟨except_bind_ok.mpr ⟨(), hnormal, hnormals⟩, ?_⟩
    rw [if_neg (Nat.not_lt.mpr hkey)]
    exact except_bind_ok.mpr ⟨(), htext, except_bind_ok.mpr ⟨(), hbound, hbounds⟩⟩

end

theorem digestValue_eq : digestValue .constant sampleTexts = fun value =>
    if plainJson 0 value = true then .ok (Sha256.constant.hexdigest "")
    else digestValue .constant sampleTexts value := by
  funext value
  by_cases h : plainJson 0 value = true
  · obtain ⟨hnormal, hbound⟩ := plainJson_passes 0 value h
    rw [if_pos h, digestValue_ok hnormal hbound]
    rfl
  · rw [if_neg h]

/-! ## Payloads -/

/-- The keys of the payloads that the gateway writes. -/
def gatewayKeys : List String :=
  ["artifact_count", "capability_id", "cost_units", "error_code", "fence_token",
    "idempotency_key_digest", "policy_digest", "request_digest", "reservation_ref", "result_digest",
    "status_digest", "trust_digest", "trust_revision"]

theorem gatewayKeys_allowed : ∀ key ∈ gatewayKeys, rawKey key = false := by decide +kernel

/-- A payload of such keys and plain values. -/
def plainPayload : List (String × Json) → Bool
  | [] => true
  | (key, value) :: payload => decide (key ∈ gatewayKeys) && plainJson 0 value && plainPayload payload

theorem rejectRaw_plain : ∀ payload : List (String × Json), plainPayload payload = true →
    rejectRawLedgerPayload sampleTexts payload = .ok ()
  | [], _ => rfl
  | (key, value) :: payload, h => by
    simp only [plainPayload, Bool.and_eq_true, decide_eq_true_eq] at h
    unfold rejectRawLedgerPayload
    rw [gatewayKeys_allowed key h.1.1, if_neg (by decide)]
    exact except_bind_ok.mpr ⟨(), (plainJson_passes 0 value h.1.2).2, rejectRaw_plain payload h.2⟩

theorem rejectRawLedgerPayload_eq : rejectRawLedgerPayload sampleTexts = fun payload =>
    if plainPayload payload = true then .ok () else rejectRawLedgerPayload sampleTexts payload := by
  funext payload
  by_cases h : plainPayload payload = true
  · rw [if_pos h, rejectRaw_plain payload h]
  · rw [if_neg h]

/-! ## Programs -/

/-- The program of a call, for evaluation: whatever the call is. -/
theorem program_eq {sha : Sha256} {texts : Texts} {ports : Ports} :
    GatewayCall.program sha texts ports = fun call => match call with
      | .invoke a => invoke sha texts ports a
      | .reconcile a => reconcile sha texts ports a
      | .cancel a => cancel sha texts ports a := by
  funext call
  cases call with
  | invoke a => rfl
  | reconcile a => rfl
  | cancel a => rfl

end Interop

end Aegis
