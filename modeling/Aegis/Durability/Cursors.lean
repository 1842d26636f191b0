/-
  CURSOR TOKENS.

  A token is the base64 text of a body and its signature.  The body is the canonical JSON of a cursor, a run
  and a tenant; the signature is the HMAC of the body, 32 bytes, so that the reader can split it off by
  length alone.

  Every token that `encode` issues for identifiers of the domain is read back (`decode_encode`): the stripped
  filling is put back, the signature is found where it was put, and the body is JSON of a known shape whose
  parts the reader takes one after the other.  In the other direction nothing is assumed of the token:
  `decode` returns a cursor only for a signed body that names the tenant and the run it was asked for
  (`decode_ok`), and raises its one error otherwise.
-/
import Mathlib
import Aegis.Lib.Json
import Aegis.Lib.Base64
import Aegis.Lib.JsonText
import Aegis.Domain

namespace Aegis

namespace Durability

open JsonText (Value Text codes getMember loads)

/-- `hmac.new(key, body, sha256).digest()`, of which only the length is known. -/
structure Hmac where
  digest : List UInt8 → List UInt8 → List UInt8
  length_ok : ∀ key body, (digest key body).length = 32

/-- `CursorCodec`, as its constructor validates it. -/
structure CursorCodec where
  key : List UInt8
  key_ok : 32 ≤ key.length

namespace CursorCodec

/-- `text.encode()`. -/
def encodeText (text : List Char) : List UInt8 := text.flatMap String.utf8EncodeChar

/-- The body of a token. -/
def body (tenantId runId : String) (cursor : Int) : List UInt8 :=
  encodeText (canonicalChars (.obj [("cursor", .int cursor), ("run_id", .str runId),
    ("tenant_id", .str tenantId)]))

section

variable (hmac : Hmac) (codec : CursorCodec)

def encode (tenantId runId : String) (cursor : Int) : String :=
  let text := body tenantId runId cursor
  String.ofList (Base64.strip (Base64.write (text ++ hmac.digest codec.key text)))

def invalidToken : Error := ⟨.valueError, "cursor token is invalid"⟩

/-- The body names the tenant and the run. -/
def Names (text : List UInt8) (tenantId runId : String) : Prop :=
  ∃ members, loads text = some (.obj members) ∧
    getMember members "tenant_id" = some (.str (codes tenantId)) ∧
    getMember members "run_id" = some (.str (codes runId))

/-- `base64.urlsafe_b64decode(token + padding)`. -/
def decoded (token : String) : Option (List UInt8) :=
  Base64.read (token.toList ++ Base64.filling token.toList)

/-- `value["cursor"]`, when the value is what `decode` asks for. -/
def cursorOf (value : Value) (tenantId runId : String) : Option Int :=
  match value with
  | .obj members =>
    match getMember members "tenant_id", getMember members "run_id", getMember members "cursor" with
    | some (.str tenant), some (.str run), some (.int cursor) =>
      if tenant = codes tenantId ∧ run = codes runId ∧ 0 ≤ cursor then some cursor else none
    | _, _, _ => none
  | _ => none

def decode (token tenantId runId : String) : Except Error Int :=
  if token.toList = [] ∨ 1024 < token.toList.length then .error invalidToken
  else
    match decoded token with
    | none => .error invalidToken
    | some bytes =>
      -- `decoded[:-32], decoded[-32:]`
      let text := bytes.take (bytes.length - 32)
      let supplied := bytes.drop (bytes.length - 32)
      match loads text with
      | none => .error invalidToken
      | some value =>
        if supplied.length = 32 ∧ supplied = hmac.digest codec.key text then
          match cursorOf value tenantId runId with
          | some cursor => .ok cursor
          | none => .error invalidToken
        else .error invalidToken

/-! ## What is returned was signed -/

variable {hmac codec}

theorem cursorOf_some {value : Value} {tenantId runId : String} {cursor : Int}
    (h : cursorOf value tenantId runId = some cursor) : 0 ≤ cursor ∧ ∃ members, value = .obj members ∧
      getMember members "tenant_id" = some (.str (codes tenantId)) ∧
      getMember members "run_id" = some (.str (codes runId)) := by
  unfold cursorOf at h
  split at h
  · rename_i members
    split at h
    · rename_i tenant run cursor' htenant hrun hcursor
      split at h
      · rename_i hnamed
        obtain ⟨rfl, rfl, hpos⟩ := hnamed
        cases h
        exact ⟨hpos, members, rfl, htenant, hrun⟩
      · cases h
    · cases h
  · cases h

/-- The body of a token and its signature are what the token decodes to. -/
def Signed (hmac : Hmac) (codec : CursorCodec) (token tenantId runId : String) : Prop :=
  ∃ text, decoded token = some (text ++ hmac.digest codec.key text) ∧ Names text tenantId runId

/-- **`decode` returns or raises its error**, and what it returns was signed for the tenant and the run. -/
theorem decode_cases (hmac : Hmac) (codec : CursorCodec) (token tenantId runId : String) :
    (∃ cursor, decode hmac codec token tenantId runId = .ok cursor ∧ 0 ≤ cursor ∧
      Signed hmac codec token tenantId runId) ∨
    decode hmac codec token tenantId runId = .error invalidToken := by
  unfold decode
  split
  · exact .inr rfl
  split
  · exact .inr rfl
  rename_i bytes hbytes
  dsimp only
  split
  · exact .inr rfl
  rename_i value hvalue
  split
  · rename_i hsigned
    split
    · rename_i cursor hcursor
      obtain ⟨hpos, members, rfl, htenant, hrun⟩ := cursorOf_some hcursor
      refine .inl ⟨cursor, rfl, hpos, bytes.take (bytes.length - 32), ?_, members, hvalue, htenant, hrun⟩
      rw [← hsigned.2, List.take_append_drop]
      exact hbytes
    · exact .inr rfl
  · exact .inr rfl

/-! ## Plain texts -/

theorem identifierChar_lt {c : Char} (h : identifierChar c = true) : c.toNat < 128 := by
  simp only [identifierChar, Char.isAlphanum, Char.isAlpha, Char.isUpper, Char.isLower, Char.isDigit,
    Bool.or_eq_true, Bool.and_eq_true, decide_eq_true_eq, beq_iff_eq, ge_iff_le,
    UInt32.le_iff_toNat_le] at h
  have hval : c.toNat = c.val.toNat := rfl
  rcases h with (((((h | h) | h) | rfl) | rfl) | rfl) | rfl
  · exact lt_of_le_of_lt h.2 (by decide)
  · exact lt_of_le_of_lt h.2 (by decide)
  · exact lt_of_le_of_lt h.2 (by decide)
  · decide
  · decide
  · decide
  · decide

/-- A character that a string shows as it is: printable, and neither a quote nor a backslash. -/
def plainChar (c : Char) : Bool := decide (32 ≤ c.toNat ∧ c.toNat < 127 ∧ c ≠ '"' ∧ c ≠ '\\')

theorem identifierChar_plain {c : Char} (h : identifierChar c = true) : plainChar c = true := by
  have hall : ∀ n : Fin 128, identifierChar (Char.ofNat n) = true → plainChar (Char.ofNat n) = true := by
    decide +kernel
  have hc := hall ⟨c.toNat, identifierChar_lt h⟩
  rw [show Char.ofNat (⟨c.toNat, identifierChar_lt h⟩ : Fin 128).val = c from Char.ofNat_toNat c] at hc
  exact hc h

theorem escapeChar_plain {c : Char} (h : plainChar c = true) : escapeChar c = [c] := by
  obtain ⟨hlow, hhigh, hquote, hslash⟩ := of_decide_eq_true h
  have hne : ∀ d : Char, d.toNat < 32 → c ≠ d := by
    rintro d hd rfl
    omega
  rw [escapeChar, if_neg hquote, if_neg hslash, if_neg (hne _ (by decide)), if_neg (hne _ (by decide)),
    if_neg (hne _ (by decide)), if_neg (by omega), if_neg (by omega), if_pos ⟨hlow, by omega⟩]

/-- A text of plain characters. -/
def PlainText (s : String) : Prop := s.toList.all plainChar = true

theorem PlainText.char {s : String} (h : PlainText s) {c : Char} (hc : c ∈ s.toList) : plainChar c = true :=
  List.all_eq_true.mp h c hc

theorem identifier_plain (i : Identifier) : PlainText i.val := by
  refine List.all_eq_true.mpr fun c hc => ?_
  have h := i.property
  simp only [isIdentifier, isReference, Bool.and_eq_true] at h
  exact identifierChar_plain (List.all_eq_true.mp h.2 c hc)

/-- The keys of a body. -/
theorem cursor_plain : PlainText "cursor" := by rfl

theorem runId_plain : PlainText "run_id" := by rfl

theorem tenantId_plain : PlainText "tenant_id" := by rfl

theorem dumpStr_plain {s : String} (h : PlainText s) : dumpStr s = '"' :: (s.toList ++ ['"']) := by
  have hflat : ∀ cs : List Char, (∀ c ∈ cs, plainChar c = true) → cs.flatMap escapeChar = cs := by
    intro cs hcs
    induction cs with
    | nil => rfl
    | cons c cs ih =>
      rw [List.flatMap_cons, escapeChar_plain (hcs c List.mem_cons_self),
        ih fun d hd => hcs d (List.mem_cons_of_mem _ hd)]
      rfl
  rw [dumpStr, hflat _ fun _ hc => h.char hc]

theorem codes_plain {s : String} (h : PlainText s) : JsonText.Plain (codes s) := by
  intro n hn
  obtain ⟨c, hc, rfl⟩ := List.mem_map.mp hn
  obtain ⟨hlow, -, hquote, hslash⟩ := of_decide_eq_true (h.char hc)
  refine ⟨hlow, fun heq => hquote ?_, fun heq => hslash ?_⟩
  · rw [← Char.ofNat_toNat c, heq]
  · rw [← Char.ofNat_toNat c, heq]

/-! ## Texts of ASCII characters -/

theorem encodeChar_ascii {c : Char} (h : c.toNat < 128) :
    ∃ b : UInt8, String.utf8EncodeChar c = [b] ∧ b.toNat = c.toNat := by
  have hval : c.val ≤ 127 := UInt32.le_iff_toNat_le.mpr (Nat.le_of_lt_succ h)
  refine ⟨c.val.toUInt8, String.utf8EncodeChar_eq_singleton (Char.utf8Size_eq_one_iff.mpr hval), ?_⟩
  rw [UInt32.toNat_toUInt8]
  exact Nat.mod_eq_of_lt (lt_trans h (by decide))

theorem encodeText_ascii {text : List Char} (h : ∀ c ∈ text, c.toNat < 128) :
    JsonText.utf8 (encodeText text) = some (text.map Char.toNat) ∧
      (encodeText text).length = text.length := by
  induction text with
  | nil => exact ⟨rfl, rfl⟩
  | cons c rest ih =>
    obtain ⟨hread, hlength⟩ := ih fun d hd => h d (List.mem_cons_of_mem _ hd)
    have hc := h c List.mem_cons_self
    obtain ⟨b, hbyte, hb⟩ := encodeChar_ascii hc
    have hcons : encodeText (c :: rest) = b :: encodeText rest := by
      rw [encodeText, List.flatMap_cons, hbyte]
      rfl
    rw [hcons, JsonText.utf8_ascii (by omega), hread, hb, List.length_cons, hlength]
    exact ⟨rfl, rfl⟩

/-! ## The body of a token -/

/-- The characters of the body. -/
def bodyText (tenantId runId : String) (cursor : Nat) : List Char :=
  '{' :: '"' :: ("cursor".toList ++ '"' :: ':' :: (Nat.toDigits 10 cursor ++ ',' :: '"' ::
    ("run_id".toList ++ '"' :: ':' :: '"' :: (runId.toList ++ '"' :: ',' :: '"' ::
      ("tenant_id".toList ++ '"' :: ':' :: '"' :: (tenantId.toList ++ ['"', '}']))))))

theorem body_eq {tenantId runId : String} (htenant : PlainText tenantId) (hrun : PlainText runId)
    (cursor : Nat) : body tenantId runId cursor = encodeText (bodyText tenantId runId cursor) := by
  have hnumber : dump (.int (cursor : Int)) = Nat.toDigits 10 cursor := Nat.toList_repr
  rw [body, canonicalChars, sortKeys_obj (by simp only [List.map_cons, List.map_nil]; decide +kernel),
    sortKeysFields, sortKeysFields, sortKeysFields, sortKeysFields, sortKeys, sortKeys, sortKeys, dump,
    dumpFields, dumpFields, dumpFields, hnumber, dump, dump, dumpStr_plain cursor_plain,
    dumpStr_plain runId_plain, dumpStr_plain tenantId_plain, dumpStr_plain htenant, dumpStr_plain hrun,
    bodyText]
  simp only [List.cons_append, List.append_assoc, List.nil_append]

theorem bodyText_codes (tenantId runId : String) (cursor : Nat) :
    (bodyText tenantId runId cursor).map Char.toNat =
      123 :: 34 :: (codes "cursor" ++ 34 :: 58 :: (JsonText.digits cursor ++ 44 :: 34 ::
        (codes "run_id" ++ 34 :: 58 :: 34 :: (codes runId ++ 34 :: 44 :: 34 ::
          (codes "tenant_id" ++ 34 :: 58 :: 34 :: (codes tenantId ++ [34, 125])))))) := by
  simp only [bodyText, List.map_cons, List.map_append, List.map_nil, codes, JsonText.digits]
  rfl

theorem plain_ascii {s : String} (h : PlainText s) : ∀ c ∈ s.toList, c.toNat < 128 := by
  intro c hc
  have hplain := of_decide_eq_true (h.char hc)
  omega

theorem bodyText_ascii {tenantId runId : String} (htenant : PlainText tenantId) (hrun : PlainText runId)
    (cursor : Nat) : ∀ c ∈ bodyText tenantId runId cursor, c.toNat < 128 := by
  have hdigits : ∀ c ∈ Nat.toDigits 10 cursor, c.toNat < 128 := by
    intro c hc
    have hdigit := Nat.isDigit_of_mem_toDigits (by decide) (by decide) hc
    exact identifierChar_lt (by simp only [identifierChar, Char.isAlphanum, hdigit, Bool.or_true, Bool.true_or])
  intro c hc
  simp only [bodyText, List.mem_cons, List.mem_append, List.not_mem_nil, or_false] at hc
  rcases hc with rfl | rfl | hc | rfl | rfl | hc | rfl | rfl | hc | rfl | rfl | rfl | hc | rfl | rfl | rfl |
    hc | rfl | rfl | rfl | hc | rfl | rfl
  all_goals first | decide | skip
  · exact plain_ascii cursor_plain c hc
  · exact hdigits c hc
  · exact plain_ascii runId_plain c hc
  · exact plain_ascii hrun c hc
  · exact plain_ascii tenantId_plain c hc
  · exact plain_ascii htenant c hc

/-- **The body is read as the object it was written from.** -/
theorem loads_body {tenantId runId : String} (htenant : PlainText tenantId) (hrun : PlainText runId)
    (cursor : Nat) : loads (encodeText (bodyText tenantId runId cursor)) =
      some (.obj [(codes "cursor", .int cursor), (codes "run_id", .str (codes runId)),
        (codes "tenant_id", .str (codes tenantId))]) := by
  have htext : JsonText.decodeText (encodeText (bodyText tenantId runId cursor)) =
      some ((bodyText tenantId runId cursor).map Char.toNat) := by
    rw [← (encodeText_ascii (bodyText_ascii htenant hrun cursor)).1]
    exact JsonText.decodeText_object _ _ _
  rw [loads, htext, bodyText_codes]
  show (JsonText.run (.value [] false) _).bind JsonText.finish = _
  rw [JsonText.run_step (t := .key [] [] true) rfl, JsonText.run_key (codes_plain cursor_plain),
    JsonText.run_step (t := .value [.members [] (codes "cursor")] false) rfl,
    JsonText.run_number cursor _ (.inl rfl),
    JsonText.run_step (t := .key [] [(codes "cursor", .int cursor)] false) rfl,
    JsonText.run_key (codes_plain runId_plain),
    JsonText.run_step (t := .value [.members _ (codes "run_id")] false) rfl,
    JsonText.run_string (codes_plain hrun),
    JsonText.run_step (t := .key [] ((codes "run_id", .str (codes runId)) :: _) false) rfl,
    JsonText.run_key (codes_plain tenantId_plain),
    JsonText.run_step (t := .value [.members _ (codes "tenant_id")] false) rfl,
    JsonText.run_string (codes_plain htenant)]
  rfl

/-! ## Issued tokens -/

/-- What a token of identifiers decodes to. -/
theorem decoded_encode (hmac : Hmac) (codec : CursorCodec) (tenantId runId : String) (cursor : Int) :
    decoded (encode hmac codec tenantId runId cursor) =
      some (body tenantId runId cursor ++ hmac.digest codec.key (body tenantId runId cursor)) := by
  rw [decoded, encode, String.toList_ofList]
  exact (Base64.read_write _).1

theorem body_length (tenantId runId : Identifier) {cursor : Nat} (hcursor : cursor < 2 ^ 63) :
    (body tenantId.val runId.val cursor).length ≤ 313 := by
  have hid : ∀ i : Identifier, i.val.toList.length ≤ 128 := by
    intro i
    have h := i.property
    simp only [isIdentifier, isReference, Bool.and_eq_true, decide_eq_true_eq] at h
    exact h.1.2
  have hdigits : (Nat.toDigits 10 cursor).length ≤ 19 :=
    (Nat.length_toDigits_le_iff (by decide) (by decide)).mpr (lt_trans hcursor (by decide))
  have htenant := hid tenantId
  have hrun := hid runId
  rw [body_eq (identifier_plain tenantId) (identifier_plain runId),
    (encodeText_ascii (bodyText_ascii (identifier_plain tenantId) (identifier_plain runId) cursor)).2, bodyText]
  have h1 : "cursor".toList.length = 6 := rfl
  have h2 : "run_id".toList.length = 6 := rfl
  have h3 : "tenant_id".toList.length = 9 := rfl
  simp only [List.length_cons, List.length_append, h1, h2, h3, List.length_nil]
  omega

/-- A token is not empty, and short enough. -/
theorem encode_length (hmac : Hmac) (codec : CursorCodec) {tenantId runId : Identifier} {cursor : Nat}
    (hcursor : cursor < 2 ^ 63) :
    ¬((encode hmac codec tenantId.val runId.val cursor).toList = [] ∨
      1024 < (encode hmac codec tenantId.val runId.val cursor).toList.length) := by
  have hbody := body_length tenantId runId hcursor
  have hdecoded := decoded_encode hmac codec tenantId.val runId.val cursor
  have hsignature := hmac.length_ok codec.key (body tenantId.val runId.val cursor)
  rintro (hempty | hlong)
  · rw [decoded, hempty] at hdecoded
    have hnil := congrArg List.length (Option.some.inj hdecoded)
    rw [List.length_append, hsignature] at hnil
    exact absurd hnil (by simp)
  · rw [encode, String.toList_ofList] at hlong
    have hlength := (Base64.read_write (body tenantId.val runId.val cursor ++
      hmac.digest codec.key (body tenantId.val runId.val cursor))).2
    rw [List.length_append, hsignature] at hlength
    omega

/-- The members of a body. -/
theorem cursorOf_body (tenantId runId : String) (cursor : Nat) :
    cursorOf (.obj [(codes "cursor", .int cursor), (codes "run_id", .str (codes runId)),
      (codes "tenant_id", .str (codes tenantId))]) tenantId runId = some (cursor : Int) := by
  show (if codes tenantId = codes tenantId ∧ codes runId = codes runId ∧ 0 ≤ (cursor : Int) then _ else _) = _
  exact if_pos ⟨rfl, rfl, Int.natCast_nonneg cursor⟩

/-- **A token is read back.** -/
theorem decode_encode (hmac : Hmac) (codec : CursorCodec) {tenantId runId : Identifier} {cursor : Nat}
    (hcursor : cursor < 2 ^ 63) :
    decode hmac codec (encode hmac codec tenantId.val runId.val cursor) tenantId.val runId.val =
      .ok (cursor : Int) := by
  have hsignature := hmac.length_ok codec.key (body tenantId.val runId.val cursor)
  have hloads := loads_body (identifier_plain tenantId) (identifier_plain runId) cursor
  rw [← body_eq (identifier_plain tenantId) (identifier_plain runId)] at hloads
  unfold decode
  rw [if_neg (encode_length hmac codec hcursor), decoded_encode]
  dsimp only
  rw [List.length_append, hsignature, Nat.add_sub_cancel, List.take_left, List.drop_left, hloads]
  dsimp only
  rw [if_pos ⟨hsignature, rfl⟩, cursorOf_body]

theorem codes_inj {s t : String} (h : codes s = codes t) : s = t := by
  refine String.toList_inj.mp (List.map_injective_iff.mpr (fun c d hcd => ?_) h)
  rw [← Char.ofNat_toNat c, hcd, Char.ofNat_toNat]

/-- **A token of one tenant and run is refused for every other.** -/
theorem decode_other (hmac : Hmac) (codec : CursorCodec) {tenantId runId : Identifier} (cursor : Nat)
    {tenantId' runId' : String} (hother : ¬(tenantId' = tenantId.val ∧ runId' = runId.val)) :
    decode hmac codec (encode hmac codec tenantId.val runId.val cursor) tenantId' runId' =
      .error invalidToken := by
  rcases decode_cases hmac codec (encode hmac codec tenantId.val runId.val cursor) tenantId' runId' with ⟨c, -, -, text, hdecoded, members, hloads, htenant, hrun⟩ | herror
  · refine absurd ?_ hother
    have hloads' := loads_body (identifier_plain tenantId) (identifier_plain runId) cursor
    rw [← body_eq (identifier_plain tenantId) (identifier_plain runId)] at hloads'
    rw [decoded_encode] at hdecoded
    have hlength : (body tenantId.val runId.val cursor).length = text.length := by
      have h := congrArg List.length (Option.some.inj hdecoded)
      rw [List.length_append, List.length_append, hmac.length_ok, hmac.length_ok] at h
      omega
    obtain ⟨rfl, -⟩ := List.append_inj (Option.some.inj hdecoded) hlength
    rw [hloads'] at hloads
    cases hloads
    have htenant' : some (Value.str (codes tenantId.val)) = some (.str (codes tenantId')) := htenant
    have hrun' : some (Value.str (codes runId.val)) = some (.str (codes runId')) := hrun
    simp only [Option.some.injEq, Value.str.injEq] at htenant' hrun'
    exact ⟨(codes_inj htenant').symm, (codes_inj hrun').symm⟩
  · exact herror

/-- **Cursor tokens.**  What is issued is read back, every string is read or refused, what is read was signed
    for its tenant and run, and so a token of one tenant and run is refused for every other. -/
theorem cursor_tokens (hmac : Hmac) (codec : CursorCodec) :
    (∀ (tenantId runId : Identifier) (cursor : Int), 0 ≤ cursor → cursor ≤ 2 ^ 63 - 1 →
      decode hmac codec (encode hmac codec tenantId.val runId.val cursor) tenantId.val runId.val = .ok cursor) ∧
    (∀ token tenantId runId : String,
      (∃ cursor, decode hmac codec token tenantId runId = .ok cursor ∧ 0 ≤ cursor ∧
        Signed hmac codec token tenantId runId) ∨
      decode hmac codec token tenantId runId = .error ⟨.valueError, "cursor token is invalid"⟩) ∧
    ∀ (tenantId runId : Identifier) (cursor : Int) (tenantId' runId' : String), 0 ≤ cursor →
      ¬(tenantId' = tenantId.val ∧ runId' = runId.val) →
      decode hmac codec (encode hmac codec tenantId.val runId.val cursor) tenantId' runId' =
        .error ⟨.valueError, "cursor token is invalid"⟩ := by
  refine ⟨?_, decode_cases hmac codec, ?_⟩
  · intro tenantId runId cursor hpos hbound
    obtain ⟨n, rfl⟩ := Int.eq_ofNat_of_zero_le hpos
    exact decode_encode hmac codec (by omega)
  · intro tenantId runId cursor tenantId' runId' hpos hother
    obtain ⟨n, rfl⟩ := Int.eq_ofNat_of_zero_le hpos
    exact decode_other hmac codec n hother

/-- A codec of the tests, with a signature that only tells the length of its input. -/
def sampleCodec : CursorCodec := ⟨List.replicate 32 97, by decide⟩

def sampleHmac : Hmac :=
  ⟨fun key text => UInt8.ofNat (key.length + text.length) :: List.replicate 31 0, fun _ _ => rfl⟩

theorem cursor_tokens_sample :
    decode sampleHmac sampleCodec (encode sampleHmac sampleCodec "tenant-acme" "run:one" 42) "tenant-acme"
      "run:one" = .ok 42 :=
  (cursor_tokens sampleHmac sampleCodec).1 ⟨"tenant-acme", by decide⟩ ⟨"run:one", by decide⟩ 42 (by norm_num)
    (by norm_num)

end

end CursorCodec

end Durability

end Aegis
