/-
  THE PARTS OF A MESSAGE, and what their digests bind.

  A part holds one of three values: a text, data, or a reference.  Which one is PRESENT is asked with
  `is not None`; the value that is hashed is the first TRUE one.  The two agree on every value but the
  empty text and the empty object: of these the digest of nothing at all is compared (`hashed_of_content`).
-/
import Mathlib
import Aegis.Interop.Facts

namespace Aegis

namespace Interop

variable {sha : Sha256} {texts : Texts}

/-! ## The model of a part -/

/-- `[a-z0-9.+-]`. -/
def mediaChar (c : Char) : Bool := c.isLower || c.isDigit || c ∈ ['.', '+', '-']

/-- `^[a-z0-9.+-]+/[a-z0-9.+-]+$`. -/
def isMediaType (s : String) : Bool :=
  match s.toList.span mediaChar with
  | (kind, '/' :: subtype) => !kind.isEmpty && !subtype.isEmpty && subtype.all mediaChar
  | _ => false

/-- How many of the three values are present. -/
def MessagePart.populated (p : MessagePart) : Nat :=
  [p.text.isSome, p.data.isSome, p.resourceRef.isSome].count true

/-- `expected[self.kind]`. -/
def MessagePart.expected (p : MessagePart) : Bool :=
  match p.kind with
  | .text => p.text.isSome
  | .data => p.data.isSome
  | .resourceRef => p.resourceRef.isSome

/-- `self.data or self.resource_ref`. -/
def MessagePart.hashedData (p : MessagePart) : Json :=
  match p.data with
  | some data => if data ≠ [] then .obj data else optionalText Subtype.val p.resourceRef
  | none => optionalText Subtype.val p.resourceRef

/-- `self.text or self.data or self.resource_ref`. -/
def MessagePart.hashed (p : MessagePart) : Json :=
  match p.text with
  | some text => if text ≠ "" then .str text else p.hashedData
  | none => p.hashedData

/-- The fields of `MessagePart`. -/
def MessagePart.validateFields (texts : Texts) (p : MessagePart) : Except Failure Unit :=
  if isMediaType p.mediaType = false then .error ⟨.validationError, "MessagePart.media_type"⟩
  else if ∃ text ∈ p.text, maxProtocolTextChars < text.length then
    .error ⟨.validationError, "MessagePart.text"⟩
  else if ∃ data ∈ p.data, 64 < data.length then .error ⟨.validationError, "MessagePart.data"⟩
  else p.text.elim (.ok ()) (validateUntrustedText texts)

/-- `validate_shape_and_digest`. -/
def MessagePart.validateShapeAndDigest (sha : Sha256) (texts : Texts) (p : MessagePart) :
    Except Failure Unit :=
  if p.populated ≠ 1 then
    .error ⟨.validationError, "message part must contain exactly one value"⟩
  else if p.expected = false then
    .error ⟨.validationError, "message part kind does not match its value"⟩
  else do
    let digest ← digestValue sha texts p.hashed
    if digest ≠ p.contentDigest then
      .error ⟨.validationError, "message part digest does not match canonical content"⟩
    else boundJson texts 0 p.hashed

/-- `MessagePart(...)`. -/
def MessagePart.validate (sha : Sha256) (texts : Texts) (p : MessagePart) : Except Failure Unit := do
  p.validateFields texts
  p.validateShapeAndDigest sha texts

/-! ## What a part is meant to be -/

/-- The value of a part that holds exactly the one its kind names. -/
def MessagePart.content (p : MessagePart) : Option Json :=
  match p.kind, p.text, p.data, p.resourceRef with
  | .text, some text, none, none => some (.str text)
  | .data, none, some data, none => some (.obj data)
  | .resourceRef, none, none, some reference => some (.str reference.val)
  | _, _, _, _ => none

/-- A part whose digest is that of its value, within the bounds. -/
structure MessagePart.Binds (sha : Sha256) (texts : Texts) (p : MessagePart) (v : Json) : Prop where
  media : isMediaType p.mediaType = true
  content : p.content = some v
  members : ∀ data ∈ p.data, data.length ≤ 64
  numbers : normalizeJson 0 v = .ok ()
  bounds : boundJson texts 0 v = .ok ()
  digest : sha.hexdigest (canonicalJson v) = p.contentDigest

/-- The two values that are present and not true. -/
def Falsy (v : Json) : Prop := v = .str "" ∨ v = .obj []

/-- What is present exactly once, under its kind, is the content. -/
theorem shape_iff {p : MessagePart} :
    p.populated = 1 ∧ p.expected = true ↔ ∃ v, p.content = some v := by
  obtain ⟨partId, kind, mediaType, text, data, resourceRef, contentDigest, redacted⟩ := p
  unfold MessagePart.populated MessagePart.expected MessagePart.content
  cases kind <;> cases text <;> cases data <;> cases resourceRef <;> simp

/-- **Of a falsy content nothing is hashed.** -/
theorem hashed_of_content {p : MessagePart} {v : Json} (h : p.content = some v) :
    (Falsy v → p.hashed = .null) ∧ (¬Falsy v → p.hashed = v) := by
  obtain ⟨partId, kind, mediaType, text, data, resourceRef, contentDigest, redacted⟩ := p
  unfold MessagePart.content at h
  unfold Falsy
  split at h
  · rename_i t hkind htext hdata href
    cases h
    dsimp only at htext hdata href
    subst htext hdata href
    by_cases ht : t = ""
    · subst ht
      exact ⟨fun _ => rfl, fun hno => absurd (.inl rfl) hno⟩
    · refine ⟨fun hfalsy => ?_, fun _ => if_pos ht⟩
      rcases hfalsy with hs | hs
      · cases hs
        exact absurd rfl ht
      · cases hs
  · rename_i d hkind htext hdata href
    cases h
    dsimp only at htext hdata href
    subst htext hdata href
    by_cases hd : d = []
    · subst hd
      exact ⟨fun _ => rfl, fun hno => absurd (.inr rfl) hno⟩
    · refine ⟨fun hfalsy => ?_, fun _ => if_pos hd⟩
      rcases hfalsy with hs | hs
      · cases hs
      · cases hs
        exact absurd rfl hd
  · rename_i r hkind htext hdata href
    cases h
    dsimp only at htext hdata href
    subst htext hdata href
    refine ⟨fun hfalsy => ?_, fun _ => rfl⟩
    have hne : r.val ≠ "" := by
      intro hempty
      have hr := r.property
      rw [hempty] at hr
      revert hr
      decide
    rcases hfalsy with hs | hs
    · exact absurd (Json.str.inj hs) hne
    · cases hs
  · cases h

/-- The text of a part is a bounded text where the value that is hashed is. -/
theorem validateFields_of {p : MessagePart} {v : Json} (hcontent : p.content = some v)
    (hmedia : isMediaType p.mediaType = true) (hmembers : ∀ data ∈ p.data, data.length ≤ 64)
    (hbounds : boundJson texts 0 v = .ok ()) : p.validateFields texts = .ok () := by
  have htext : ∀ text ∈ p.text, validateUntrustedText texts text = .ok () ∧
      text.length ≤ maxProtocolTextChars := by
    intro text hmem
    have hv : v = .str text := by
      obtain ⟨partId, kind, mediaType, t, data, resourceRef, contentDigest, redacted⟩ := p
      obtain rfl : t = some text := hmem
      unfold MessagePart.content at hcontent
      cases kind <;> cases data <;> cases resourceRef <;> cases hcontent
      rfl
    have hvalid : validateUntrustedText texts text = .ok () := by
      rw [hv] at hbounds
      unfold boundJson at hbounds
      rw [if_neg (by omega)] at hbounds
      exact hbounds
    refine ⟨hvalid, ?_⟩
    unfold validateUntrustedText at hvalid
    split at hvalid
    · cases hvalid
    split at hvalid
    · cases hvalid
    split at hvalid
    · cases hvalid
    split at hvalid
    · cases hvalid
    · exact Nat.not_lt.mp ‹_›
  unfold MessagePart.validateFields
  rw [if_neg (by rw [hmedia]; decide), if_neg, if_neg]
  · cases hp : p.text with
    | none => rfl
    | some text => exact (htext text (by rw [hp]; rfl)).1
  · rintro ⟨data, hdata, hmany⟩
    exact absurd (hmembers data hdata) (Nat.not_le.mpr hmany)
  · rintro ⟨text, hmem, hlong⟩
    exact absurd (htext text hmem).2 (Nat.not_le.mpr hlong)

/-- **What is accepted**: a part with one value, its own, whose digest is that of the value hashed. -/
theorem validate_iff {p : MessagePart} : p.validate sha texts = .ok () ↔
    p.validateFields texts = .ok () ∧ (∃ v, p.content = some v) ∧
      normalizeJson 0 p.hashed = .ok () ∧ boundJson texts 0 p.hashed = .ok () ∧
        sha.hexdigest (canonicalJson p.hashed) = p.contentDigest := by
  unfold MessagePart.validate
  rw [except_bind_ok, ← shape_iff]
  unfold MessagePart.validateShapeAndDigest
  constructor
  · rintro ⟨_, hfields, h⟩
    split at h
    · cases h
    rename_i hone
    split at h
    · cases h
    rename_i hkind
    obtain ⟨digest, hdigest, h⟩ := except_bind_ok.mp h
    split at h
    · cases h
    rename_i hsame
    obtain ⟨hnumbers, hbounds, hd⟩ := digestValue_iff.mp hdigest
    exact ⟨hfields, ⟨not_not.mp hone, Bool.not_eq_false _ ▸ hkind⟩, hnumbers, hbounds,
      hd.trans (not_not.mp hsame)⟩
  · rintro ⟨hfields, ⟨hone, hkind⟩, hnumbers, hbounds, hd⟩
    refine ⟨(), hfields, ?_⟩
    rw [if_neg (not_not.mpr hone), if_neg (by rw [hkind]; decide),
      digestValue_iff.mpr ⟨hnumbers, hbounds, hd⟩]
    show (if p.contentDigest ≠ p.contentDigest then _ else boundJson texts 0 p.hashed) = _
    rw [if_neg (not_not.mpr rfl)]
    exact hbounds

theorem validateFields_ok {p : MessagePart} (h : p.validateFields texts = .ok ()) :
    isMediaType p.mediaType = true ∧ ∀ data ∈ p.data, data.length ≤ 64 := by
  unfold MessagePart.validateFields at h
  split at h
  · cases h
  rename_i hmedia
  split at h
  · cases h
  split at h
  · cases h
  rename_i hmany
  exact ⟨Bool.not_eq_false _ ▸ hmedia,
    fun data hdata => Nat.not_lt.mp fun hlong => hmany ⟨data, hdata, hlong⟩⟩

theorem Falsy.within (htexts : texts.Lawful) {v : Json} (hv : Falsy v) :
    normalizeJson 0 v = .ok () ∧ boundJson texts 0 v = .ok () := by
  rcases hv with rfl | rfl
  · have hempty : validateUntrustedText texts "" = .ok () :=
      validateUntrustedText_ok htexts (by decide) (by decide)
    have hscalar : Scalar texts (.str "") := hempty
    exact ⟨hscalar.normalize (by omega), hscalar.bound (by omega)⟩
  · have hflat : Flat texts [] := ⟨Nat.zero_le _, fun f hf => by cases hf⟩
    exact ⟨hflat.normalize (by omega), hflat.bound htexts (by omega)⟩

theorem content_ne_null {p : MessagePart} {v : Json} (h : p.content = some v) : ¬Json.null.Same v := by
  intro hsame
  have hsorted : sortKeys .null = sortKeys v := hsame
  unfold MessagePart.content at h
  rw [sortKeys] at hsorted
  split at h
  · cases h
    rw [sortKeys] at hsorted
    cases hsorted
  · cases h
    rw [sortKeys] at hsorted
    cases hsorted
  · cases h
    rw [sortKeys] at hsorted
    cases hsorted
  · cases h

/-- The texts that are hashed for the parts. -/
def hashedTexts (p q : MessagePart) : Set String :=
  insert (canonicalJson .null)
    {text | ∃ v, (p.content = some v ∨ q.content = some v) ∧ text = canonicalJson v}

/-- A well-formed part with a falsy content, under the digest of this content or that of nothing. -/
structure MessagePart.Misread (sha : Sha256) (p : MessagePart) (v : Json) : Prop where
  content : p.content = some v
  falsy : Falsy v
  media : isMediaType p.mediaType = true
  digest : p.contentDigest = sha.hexdigest (canonicalJson .null) ∨
    p.contentDigest = sha.hexdigest (canonicalJson v)

/-- One of the two is the empty text, the other the empty object. -/
def Confused (v w : Json) : Prop := v = .str "" ∧ w = .obj [] ∨ v = .obj [] ∧ w = .str ""

theorem Falsy.same_iff {v w : Json} (hv : Falsy v) (hw : Falsy w) : v.Same w ↔ ¬Confused v w := by
  have hstr : ¬(Json.str "").Same (.obj []) := by
    intro hsame
    have hsorted : sortKeys (.str "") = sortKeys (.obj []) := hsame
    rw [sortKeys, sortKeys] at hsorted
    cases hsorted
  constructor
  · rintro hsame (⟨rfl, rfl⟩ | ⟨rfl, rfl⟩)
    · exact hstr hsame
    · exact hstr hsame.symm
  · intro hno
    rcases hv with rfl | rfl
    · rcases hw with rfl | rfl
      · exact Json.Same.refl _
      · exact absurd (.inl ⟨rfl, rfl⟩) hno
    · rcases hw with rfl | rfl
      · exact absurd (.inr ⟨rfl, rfl⟩) hno
      · exact Json.Same.refl _

/-- A part whose content is true is accepted exactly when its digest is that of its content. -/
theorem validate_truthy {p : MessagePart} {v : Json} (hcontent : p.content = some v) (hv : ¬Falsy v) :
    p.validate sha texts = .ok () ↔ p.Binds sha texts v := by
  rw [validate_iff, (hashed_of_content hcontent).2 hv]
  constructor
  · rintro ⟨hfields, -, hnumbers, hbounds, hd⟩
    obtain ⟨hmedia, hmembers⟩ := validateFields_ok hfields
    exact ⟨hmedia, hcontent, hmembers, hnumbers, hbounds, hd⟩
  · intro h
    exact ⟨validateFields_of hcontent h.media h.members h.bounds, ⟨v, hcontent⟩, h.numbers, h.bounds, h.digest⟩

/-- A part whose content is falsy is accepted exactly under the digest of nothing. -/
theorem validate_falsy (htexts : texts.Lawful) {p : MessagePart} {v : Json}
    (hcontent : p.content = some v) (hv : Falsy v) :
    (p.validate sha texts = .ok () ↔ isMediaType p.mediaType = true ∧
      sha.hexdigest (canonicalJson .null) = p.contentDigest) ∧
    (p.Binds sha texts v ↔ isMediaType p.mediaType = true ∧
      sha.hexdigest (canonicalJson v) = p.contentDigest) := by
  obtain ⟨hnumbers, hbounds⟩ := hv.within htexts
  have hmembers : ∀ data ∈ p.data, data.length ≤ 64 := by
    intro data hmem
    obtain ⟨partId, kind, mediaType, text, d, resourceRef, contentDigest, redacted⟩ := p
    obtain rfl : d = some data := hmem
    unfold MessagePart.content at hcontent
    cases kind <;> cases text <;> cases resourceRef <;> cases hcontent
    rcases hv with hs | hs
    · cases hs
    · cases hs
      exact Nat.zero_le _
  constructor
  · rw [validate_iff, (hashed_of_content hcontent).1 hv]
    constructor
    · rintro ⟨hfields, -, -, -, hd⟩
      exact ⟨(validateFields_ok hfields).1, hd⟩
    · rintro ⟨hmedia, hd⟩
      exact ⟨validateFields_of hcontent hmedia hmembers hbounds, ⟨v, hcontent⟩, rfl, rfl, hd⟩
  · constructor
    · exact fun h => ⟨h.media, h.digest⟩
    · rintro ⟨hmedia, hd⟩
      exact ⟨hmedia, hcontent, hmembers, hnumbers, hbounds, hd⟩

/-- **A part is accepted as it should be unless it is misread**, and two accepted parts with one digest
    have one content unless one of them is the empty text and the other the empty object. -/
theorem part_digest_iff (sha : Sha256) (texts : Texts) (htexts : texts.Lawful) (p q : MessagePart)
    (hsha : sha.CollisionFree (hashedTexts p q)) :
    ((p.validate sha texts = .ok () ↔ ∃ v, p.Binds sha texts v) ↔ ¬∃ v, p.Misread sha v) ∧
    (p.validate sha texts = .ok () → q.validate sha texts = .ok () → p.contentDigest = q.contentDigest →
      ∃ v w, p.content = some v ∧ q.content = some w ∧ (v.Same w ↔ ¬Confused v w)) := by
  have hnull : canonicalJson .null ∈ hashedTexts p q := Set.mem_insert _ _
  constructor
  · cases hcontent : p.content with
    | none =>
      refine ⟨fun _ ⟨v, hv⟩ => ?_, fun _ => ⟨fun h => ?_, fun ⟨v, hv⟩ => ?_⟩⟩
      · cases hcontent.symm.trans hv.content
      · obtain ⟨-, ⟨v, hv⟩, -⟩ := validate_iff.mp h
        cases hcontent.symm.trans hv
      · cases hcontent.symm.trans hv.content
    | some v =>
      have hthe : ∀ {P : Json → Prop}, (∀ w, P w → p.content = some w) → ((∃ w, P w) ↔ P v) := by
        intro P hP
        refine ⟨fun ⟨w, hw⟩ => ?_, fun h => ⟨v, h⟩⟩
        have hcw := hP w hw
        rw [hcontent] at hcw
        cases hcw
        exact hw
      rw [hthe fun w hw => hw.content, hthe fun w hw => hw.content]
      by_cases hv : Falsy v
      · obtain ⟨haccepted, hbinds⟩ := @validate_falsy sha _ htexts _ _ hcontent hv
        have hne : sha.hexdigest (canonicalJson .null) ≠ sha.hexdigest (canonicalJson v) := by
          intro hsame
          have htext := hsha.hexdigest hnull (.inr ⟨v, .inl hcontent, rfl⟩) hsame
          exact content_ne_null hcontent (canonicalJson_inj.mp htext)
        rw [haccepted, hbinds]
        constructor
        · rintro hiff ⟨-, -, hmedia, hd | hd⟩
          · exact hne (hd.symm.trans (hiff.mp ⟨hmedia, hd.symm⟩).2.symm)
          · exact hne ((hiff.mpr ⟨hmedia, hd.symm⟩).2.trans hd)
        · intro hno
          refine ⟨fun ⟨hmedia, hd⟩ => ?_, fun ⟨hmedia, hd⟩ => ?_⟩
          · exact absurd ⟨hcontent, hv, hmedia, .inl hd.symm⟩ hno
          · exact absurd ⟨hcontent, hv, hmedia, .inr hd.symm⟩ hno
      · rw [validate_truthy hcontent hv]
        exact ⟨fun _ hmis => hv hmis.falsy, fun _ => Iff.rfl⟩
  · intro hp hq hsame
    obtain ⟨-, ⟨v, hcv⟩, -, -, hdp⟩ := validate_iff.mp hp
    obtain ⟨-, ⟨w, hcw⟩, -, -, hdq⟩ := validate_iff.mp hq
    refine ⟨v, w, hcv, hcw, ?_⟩
    -- the values hashed have one text
    have hhashed : ∀ {r : MessagePart} {u : Json}, r.content = some u → (r = p ∨ r = q) →
        canonicalJson r.hashed ∈ hashedTexts p q := by
      intro r u hr hwhich
      by_cases hu : Falsy u
      · rw [(hashed_of_content hr).1 hu]
        exact hnull
      · rw [(hashed_of_content hr).2 hu]
        refine .inr ⟨u, ?_, rfl⟩
        rcases hwhich with rfl | rfl
        · exact .inl hr
        · exact .inr hr
    have htext := hsha.hexdigest (hhashed hcv (.inl rfl)) (hhashed hcw (.inr rfl))
      (hdp.trans (hsame.trans hdq.symm))
    have hvalues := canonicalJson_inj.mp htext
    by_cases hv : Falsy v
    · by_cases hw : Falsy w
      · exact hv.same_iff hw
      · rw [(hashed_of_content hcv).1 hv, (hashed_of_content hcw).2 hw] at hvalues
        exact absurd hvalues (content_ne_null hcw)
    · by_cases hw : Falsy w
      · rw [(hashed_of_content hcv).2 hv, (hashed_of_content hcw).1 hw] at hvalues
        exact absurd hvalues.symm (content_ne_null hcv)
      · rw [(hashed_of_content hcv).2 hv, (hashed_of_content hcw).2 hw] at hvalues
        refine ⟨fun _ hconfused => ?_, fun _ => hvalues⟩
        rcases hconfused with ⟨rfl, -⟩ | ⟨rfl, -⟩
        · exact hv (.inl rfl)
        · exact hv (.inr rfl)

/-- A hash that tells the texts of the examples apart. -/
def partSha : Sha256 := .table ["null", "\"\"", "{}", "\"ok\""]

/-- A text with the digest of a document. -/
def textPart (text : String) (document : Json) : MessagePart where
  partId := ⟨"part", by decide⟩
  kind := .text
  mediaType := "text/plain"
  text := some text
  data := none
  resourceRef := none
  contentDigest := partSha.hexdigest (canonicalJson document)
  redacted := false

/-- The empty object with the digest of nothing. -/
def emptyData : MessagePart :=
  { textPart "" .null with kind := .data, mediaType := "application/json", text := none, data := some [] }

theorem part_digest_sample :
    (((textPart "ok" (.str "ok")).validate partSha sampleTexts = .ok () ↔
        ∃ v, (textPart "ok" (.str "ok")).Binds partSha sampleTexts v) ↔
      ¬∃ v, (textPart "ok" (.str "ok")).Misread partSha v) ∧
    ((textPart "ok" (.str "ok")).validate partSha sampleTexts = .ok () →
      emptyData.validate partSha sampleTexts = .ok () →
      (textPart "ok" (.str "ok")).contentDigest = emptyData.contentDigest →
      ∃ v w, (textPart "ok" (.str "ok")).content = some v ∧ emptyData.content = some w ∧
        (v.Same w ↔ ¬Confused v w)) := by
  refine part_digest_iff partSha sampleTexts (fun _ _ => rfl) _ _ ?_
  refine Sha256.table_collisionFree (by decide) "null" fun text htext => ?_
  rcases htext with rfl | ⟨v, hv | hv, rfl⟩
  · exact .inl (by decide +kernel)
  · cases hv
    exact .inl (by decide +kernel)
  · cases hv
    exact .inl (by decide +kernel)

/-- The empty text and the empty object are accepted under one digest, which is that of neither, and the
    empty text is refused under its own. -/
theorem empty_parts_confused :
    (textPart "" .null).validate partSha sampleTexts = .ok () ∧
      emptyData.validate partSha sampleTexts = .ok () ∧
      (textPart "" .null).contentDigest = emptyData.contentDigest ∧
      (textPart "" .null).content = some (.str "") ∧ emptyData.content = some (.obj []) ∧
      partSha.hexdigest (canonicalJson (.str "")) ≠ (textPart "" .null).contentDigest ∧
      (textPart "" (.str "")).validate partSha sampleTexts ≠ .ok () := by
  refine ⟨by decide +kernel, by decide +kernel, rfl, rfl, rfl, by decide +kernel, by decide +kernel⟩

end Interop

end Aegis
