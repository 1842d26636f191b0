/-
  WHICH FACTS THE LEDGER ACCEPTS, and that it verifies.

  `append` digests the material of a fact with its time in UTC; the model of the fact digests its own
  dump, whose time stands in the offset it came with.  The two texts are one where the offset is zero and
  two everywhere else (`digests_agree_iff`).  Apart from this a fact is built when its identifiers, its
  number of members and its document keep their bounds (`Storable`) -- the document has the payload two
  levels below its root, so the bound on the payload is tighter there than where it is first checked.

  `reject_raw_ledger_payload` looks at the keys of the payload and only MEASURES what is below them
  (`boundJson`): the keys of a mapping inside a value are not compared with the forbidden names.
-/
import Mathlib
import Aegis.Lib.HashChain
import Aegis.Interop.Gateway

namespace Aegis

namespace Interop

variable {sha : Sha256} {texts : Texts}

/-! ## The two traversals, one level at a time -/

theorem normalizeFields_iff {depth : Nat} {fields : List (String × Json)} :
    normalizeFields depth fields = .ok () ↔ ∀ f ∈ fields, normalizeJson depth f.2 = .ok () := by
  refine ⟨fun h => ?_, normalizeFields_ok⟩
  induction fields with
  | nil => exact fun f hf => by cases hf
  | cons f fields ih =>
    unfold normalizeFields at h
    obtain ⟨_, hvalue, hrest⟩ := except_bind_ok.mp h
    exact List.forall_mem_cons.mpr ⟨hvalue, ih hrest⟩

theorem boundItems_iff {depth : Nat} {items : List Json} :
    boundItems texts depth items = .ok () ↔ ∀ v ∈ items, boundJson texts depth v = .ok () := by
  induction items with
  | nil =>
    unfold boundItems
    exact ⟨fun _ v hv => by (cases hv), fun _ => rfl⟩
  | cons item items ih =>
    unfold boundItems
    rw [except_bind_ok, List.forall_mem_cons, ih]
    constructor
    · rintro ⟨_, hitem, hrest⟩
      exact ⟨hitem, hrest⟩
    · rintro ⟨hitem, hrest⟩
      exact ⟨(), hitem, hrest⟩

theorem boundFields_iff {depth : Nat} {fields : List (String × Json)} :
    boundFields texts depth fields = .ok () ↔ ∀ f ∈ fields, f.1.length ≤ 128 ∧
      validateUntrustedText texts f.1 = .ok () ∧ boundJson texts depth f.2 = .ok () := by
  induction fields with
  | nil =>
    unfold boundFields
    exact ⟨fun _ f hf => by (cases hf), fun _ => rfl⟩
  | cons f fields ih =>
    unfold boundFields
    rw [List.forall_mem_cons, ← ih]
    constructor
    · intro h
      split at h
      · cases h
      · rename_i hkey
        obtain ⟨_, htext, h⟩ := except_bind_ok.mp h
        obtain ⟨_, hvalue, hrest⟩ := except_bind_ok.mp h
        exact ⟨⟨Nat.not_lt.mp hkey, htext, hvalue⟩, hrest⟩
    · rintro ⟨⟨hkey, htext, hvalue⟩, hrest⟩
      rw [if_neg (Nat.not_lt.mpr hkey), htext, hvalue]
      exact hrest

theorem normalizeObj_iff {depth : Nat} {fields : List (String × Json)} :
    normalizeJson depth (.obj fields) = .ok () ↔
      depth ≤ 12 ∧ ∀ f ∈ fields, normalizeJson (depth + 1) f.2 = .ok () := by
  rw [← normalizeFields_iff]
  unfold normalizeJson
  by_cases hdepth : 12 < depth
  · rw [if_pos hdepth]
    exact ⟨fun h => by (cases h), fun h => by omega⟩
  · rw [if_neg hdepth]
    exact ⟨fun h => ⟨Nat.not_lt.mp hdepth, h⟩, fun h => h.2⟩

theorem boundObj_iff {depth : Nat} {fields : List (String × Json)} :
    boundJson texts depth (.obj fields) = .ok () ↔ depth ≤ 12 ∧ fields.length ≤ 128 ∧
      boundFields texts (depth + 1) fields = .ok () := by
  unfold boundJson
  by_cases hdepth : 12 < depth
  · rw [if_pos hdepth]
    exact ⟨fun h => by (cases h), fun h => by omega⟩
  · rw [if_neg hdepth]
    show (if 128 < fields.length then _ else boundFields texts (depth + 1) fields) = _ ↔ _
    by_cases hmany : 128 < fields.length
    · rw [if_pos hmany]
      exact ⟨fun h => by (cases h), fun h => by omega⟩
    · rw [if_neg hmany]
      exact ⟨fun h => ⟨Nat.not_lt.mp hdepth, Nat.not_lt.mp hmany, h⟩, fun h => h.2.2⟩

theorem boundArr_iff {depth : Nat} {items : List Json} :
    boundJson texts depth (.arr items) = .ok () ↔ depth ≤ 12 ∧ items.length ≤ 256 ∧
      ∀ v ∈ items, boundJson texts (depth + 1) v = .ok () := by
  rw [← boundItems_iff]
  unfold boundJson
  by_cases hdepth : 12 < depth
  · rw [if_pos hdepth]
    exact ⟨fun h => by (cases h), fun h => by omega⟩
  · rw [if_neg hdepth]
    show (if 256 < items.length then _ else boundItems texts (depth + 1) items) = _ ↔ _
    by_cases hmany : 256 < items.length
    · rw [if_pos hmany]
      exact ⟨fun h => by (cases h), fun h => by omega⟩
    · rw [if_neg hmany]
      exact ⟨fun h => ⟨Nat.not_lt.mp hdepth, Nat.not_lt.mp hmany, h⟩, fun h => h.2.2⟩

/-- The document is within its bounds, and its digest is the hash of its canonical text. -/
theorem digestValue_iff {v : Json} {d : Digest} :
    digestValue sha texts v = .ok d ↔ normalizeJson 0 v = .ok () ∧ boundJson texts 0 v = .ok () ∧
      sha.hexdigest (canonicalJson v) = d := by
  constructor
  · intro h
    unfold digestValue canonicalDocument at h
    obtain ⟨text, htext, hd⟩ := except_bind_ok.mp h
    obtain ⟨_, hnormal, htext⟩ := except_bind_ok.mp htext
    obtain ⟨_, hbound, htext⟩ := except_bind_ok.mp htext
    rw [← Except.ok.inj htext] at hd
    exact ⟨hnormal, hbound, Except.ok.inj hd⟩
  · rintro ⟨hnormal, hbound, rfl⟩
    exact digestValue_ok hnormal hbound

mutual

/-- What is within the bounds below some level is within them below any higher one. -/
theorem boundJson_mono {depth depth' : Nat} (hle : depth' ≤ depth) : ∀ v : Json,
    boundJson texts depth v = .ok () → boundJson texts depth' v = .ok ()
  | .null, h => by
    unfold boundJson at h ⊢
    split at h
    · cases h
    · rw [if_neg (by omega)]
  | .bool b, h => by
    unfold boundJson at h ⊢
    split at h
    · cases h
    · rw [if_neg (by omega)]
  | .int i, h => by
    unfold boundJson at h ⊢
    split at h
    · cases h
    · rw [if_neg (by omega)]
  | .float x, h => by
    unfold boundJson at h ⊢
    split at h
    · cases h
    · rw [if_neg (by omega)]
  | .str s, h => by
    unfold boundJson at h ⊢
    split at h
    · cases h
    · rw [if_neg (by omega)]
      exact h
  | .arr items, h => by
    obtain ⟨hdepth, hmany, hitems⟩ := boundArr_iff.mp h
    exact boundArr_iff.mpr ⟨by omega, hmany, boundItems_mono (by omega) items hitems⟩
  | .obj fields, h => by
    obtain ⟨hdepth, hmany, hfields⟩ := boundObj_iff.mp h
    refine boundObj_iff.mpr ⟨by omega, hmany, boundFields_iff.mpr ?_⟩
    have hvalues := boundValues_mono (Nat.add_le_add_right hle 1) fields fun f hf => (boundFields_iff.mp hfields f hf).2.2
    intro f hf
    obtain ⟨hkey, htext, -⟩ := boundFields_iff.mp hfields f hf
    exact ⟨hkey, htext, hvalues f hf⟩

theorem boundItems_mono {depth depth' : Nat} (hle : depth' ≤ depth) : ∀ items : List Json,
    (∀ v ∈ items, boundJson texts depth v = .ok ()) → ∀ v ∈ items, boundJson texts depth' v = .ok ()
  | [], _ => fun v hv => by cases hv
  | item :: items, h => List.forall_mem_cons.mpr
      ⟨boundJson_mono hle item (h item List.mem_cons_self),
        boundItems_mono hle items fun v hv => h v (List.mem_cons_of_mem _ hv)⟩

theorem boundValues_mono {depth depth' : Nat} (hle : depth' ≤ depth) : ∀ fields : List (String × Json),
    (∀ f ∈ fields, boundJson texts depth f.2 = .ok ()) →
      ∀ f ∈ fields, boundJson texts depth' f.2 = .ok ()
  | [], _ => fun f hf => by cases hf
  | (key, value) :: fields, h => List.forall_mem_cons.mpr
      ⟨boundJson_mono hle value (h (key, value) List.mem_cons_self),
        boundValues_mono hle fields fun f hf => h f (List.mem_cons_of_mem _ hf)⟩

end

mutual

theorem normalizeJson_mono {depth depth' : Nat} (hle : depth' ≤ depth) : ∀ v : Json,
    normalizeJson depth v = .ok () → normalizeJson depth' v = .ok ()
  | .null, h => by
    unfold normalizeJson at h ⊢
    split at h
    · cases h
    · rw [if_neg (by omega)]
  | .bool b, h => by
    unfold normalizeJson at h ⊢
    split at h
    · cases h
    · rw [if_neg (by omega)]
  | .int i, h => by
    unfold normalizeJson at h ⊢
    split at h
    · cases h
    · rw [if_neg (by omega)]
  | .float x, h => by
    unfold normalizeJson at h ⊢
    split at h
    · cases h
    · rw [if_neg (by omega)]
      exact h
  | .str s, h => by
    unfold normalizeJson at h ⊢
    split at h
    · cases h
    · rw [if_neg (by omega)]
  | .arr items, h => by
    unfold normalizeJson at h ⊢
    split at h
    · cases h
    · rw [if_neg (by omega)]
      exact normalizeItems_mono (Nat.add_le_add_right hle 1) items h
  | .obj fields, h => by
    unfold normalizeJson at h ⊢
    split at h
    · cases h
    · rw [if_neg (by omega)]
      exact normalizeFields_mono (Nat.add_le_add_right hle 1) fields h

theorem normalizeItems_mono {depth depth' : Nat} (hle : depth' ≤ depth) : ∀ items : List Json,
    normalizeItems depth items = .ok () → normalizeItems depth' items = .ok ()
  | [], _ => by
    unfold normalizeItems
    rfl
  | item :: items, h => by
    unfold normalizeItems at h ⊢
    obtain ⟨_, hitem, hrest⟩ := except_bind_ok.mp h
    rw [normalizeJson_mono hle item hitem]
    exact normalizeItems_mono hle items hrest

theorem normalizeFields_mono {depth depth' : Nat} (hle : depth' ≤ depth) :
    ∀ fields : List (String × Json), normalizeFields depth fields = .ok () →
      normalizeFields depth' fields = .ok ()
  | [], _ => by
    unfold normalizeFields
    rfl
  | (key, value) :: fields, h => by
    unfold normalizeFields at h ⊢
    obtain ⟨_, hvalue, hrest⟩ := except_bind_ok.mp h
    rw [normalizeJson_mono hle value hvalue]
    exact normalizeFields_mono hle fields hrest

end

/-! ## Mappings inside a payload -/

mutual

/-- The mappings of a value: the value itself, if it is one, and all inside it. -/
def mappings : Json → List (List (String × Json))
  | .obj fields => fields :: mappingsOfFields fields
  | .arr items => mappingsOfItems items
  | _ => []

def mappingsOfItems : List Json → List (List (String × Json))
  | [] => []
  | item :: items => mappings item ++ mappingsOfItems items

/-- The mappings inside the values of a mapping: of a payload, those that are nested in it. -/
def mappingsOfFields : List (String × Json) → List (List (String × Json))
  | [] => []
  | (_, value) :: fields => mappings value ++ mappingsOfFields fields

end

mutual

/-- What stands in a mapping inside a bounded value is bounded by itself. -/
theorem mappings_bounded {depth : Nat} : ∀ v : Json, boundJson texts depth v = .ok () →
    ∀ fields ∈ mappings v, ∀ f ∈ fields, boundJson texts 0 f.2 = .ok ()
  | .null, _ => fun fields h => by cases h
  | .bool _, _ => fun fields h => by cases h
  | .int _, _ => fun fields h => by cases h
  | .float _, _ => fun fields h => by cases h
  | .str _, _ => fun fields h => by cases h
  | .arr items, h => by
    obtain ⟨-, -, hitems⟩ := boundArr_iff.mp h
    exact mappingsOfItems_bounded items hitems
  | .obj fields, h => by
    obtain ⟨-, -, hfields⟩ := boundObj_iff.mp h
    have hvalues : ∀ f ∈ fields, boundJson texts (depth + 1) f.2 = .ok () :=
      fun f hf => (boundFields_iff.mp hfields f hf).2.2
    refine List.forall_mem_cons.mpr ⟨?_, mappingsOfFields_bounded fields hvalues⟩
    exact boundValues_mono (Nat.zero_le _) fields hvalues

theorem mappingsOfItems_bounded {depth : Nat} : ∀ items : List Json,
    (∀ v ∈ items, boundJson texts depth v = .ok ()) →
      ∀ fields ∈ mappingsOfItems items, ∀ f ∈ fields, boundJson texts 0 f.2 = .ok ()
  | [], _ => fun fields h => by cases h
  | item :: items, h => fun fields hmem => by
    rcases List.mem_append.mp hmem with hhead | htail
    · exact mappings_bounded item (h item List.mem_cons_self) fields hhead
    · exact mappingsOfItems_bounded items (fun v hv => h v (List.mem_cons_of_mem _ hv)) fields htail

theorem mappingsOfFields_bounded {depth : Nat} : ∀ payload : List (String × Json),
    (∀ f ∈ payload, boundJson texts depth f.2 = .ok ()) →
      ∀ fields ∈ mappingsOfFields payload, ∀ f ∈ fields, boundJson texts 0 f.2 = .ok ()
  | [], _ => fun fields h => by cases h
  | (key, value) :: payload, h => fun fields hmem => by
    rcases List.mem_append.mp hmem with hhead | htail
    · exact mappings_bounded value (h (key, value) List.mem_cons_self) fields hhead
    · exact mappingsOfFields_bounded payload (fun f hf => h f (List.mem_cons_of_mem _ hf)) fields htail

end

/-- The check of a payload: its own keys, and the size of its values. -/
theorem rejectRaw_iff {payload : List (String × Json)} :
    rejectRawLedgerPayload texts payload = .ok () ↔
      ∀ f ∈ payload, rawKey f.1 = false ∧ boundJson texts 0 f.2 = .ok () := by
  induction payload with
  | nil => exact ⟨fun _ f hf => by (cases hf), fun _ => rfl⟩
  | cons f payload ih =>
    unfold rejectRawLedgerPayload
    rw [List.forall_mem_cons, ← ih]
    constructor
    · intro h
      split at h
      · cases h
      · rename_i hkey
        obtain ⟨_, hvalue, hrest⟩ := except_bind_ok.mp h
        exact ⟨⟨Bool.not_eq_true _ ▸ hkey, hvalue⟩, hrest⟩
    · rintro ⟨⟨hkey, hvalue⟩, hrest⟩
      rw [if_neg (by rw [hkey]; decide), hvalue]
      exact hrest

/-- Nothing is recorded, and nothing known is returned, without the check of the payload. -/
theorem append_checked {s s' : State} {c : AppendCall} {fact : InteroperabilityFact}
    (h : append sha texts c s = (.ok fact, s')) : rejectRawLedgerPayload texts c.payload = .ok () := by
  cases hraw : rejectRawLedgerPayload texts c.payload with
  | ok _ => rfl
  | error e =>
    unfold append at h
    rw [hraw] at h
    cases h

/-- A payload with a secret one level down. -/
def nestedCall : AppendCall where
  operationId := "operation"
  factType := .invocationRequested
  commandRef := "command"
  actorRef := ⟨"actor", by decide⟩
  peerId := "peer"
  payload := [("details", .obj [("token", .str "s3cr3t")])]
  recordedAt := ⟨0, 0⟩
  projection := none

theorem nestedCall_accepted :
    ∃ fact s', append .constant sampleTexts nestedCall State.init = (.ok fact, s') := by
  have hok : (append .constant sampleTexts nestedCall State.init).1.isOk = true := by decide +kernel
  cases hrun : append .constant sampleTexts nestedCall State.init with
  | mk r s' =>
    rw [hrun] at hok
    cases r with
    | ok fact => exact ⟨fact, s', rfl⟩
    | error e => cases hok

/-! ## The text of a time -/

/-- A datetime of the language: its local time lies in the years 1 to 9999. -/
def InCalendar (d : Datetime) : Prop :=
  -62135596800000000 ≤ d.localTime ∧ d.localTime < 253402300800000000

instance (d : Datetime) : Decidable (InCalendar d) := inferInstanceAs (Decidable (_ ∧ _))

theorem length_pad {width n k : Nat} (hwidth : width ≤ k) (hk : 0 < k) (hn : n < 10 ^ k) :
    (Datetime.pad width n).length ≤ k := by
  have hdigits := (Nat.length_toDigits_le_iff (by decide : 1 < 10) hk).mpr hn
  unfold Datetime.pad
  rw [List.length_append, List.length_replicate]
  omega

theorem printable_pad {width n : Nat} : (Datetime.pad width n).all printable = true := by
  refine List.all_eq_true.mpr fun c hc => printable_of_alphanum ?_
  unfold Char.isAlphanum
  rw [Datetime.pad_isDigit hc, Bool.or_true]

theorem civil_bounds {days : Int} (hlow : -719162 ≤ days) (hhigh : days ≤ 2932896) :
    (Datetime.civil days).1.natAbs < 10 ^ 5 ∧ (Datetime.civil days).2.1 < 10 ^ 2 ∧
      (Datetime.civil days).2.2 < 10 ^ 2 := by
  have hdoy := Datetime.marchYear_doy (days + 719468)
  have hyear : 0 ≤ (Datetime.marchYear (days + 719468)).1 ∧
      (Datetime.marchYear (days + 719468)).1 ≤ 10000 := by
    simp only [Datetime.marchYear]
    omega
  simp only [Datetime.civil]
  refine ⟨?_, ?_, by omega⟩
  · split
    · omega
    · omega
  · split
    · omega
    · omega

/-- A time in UTC is a short text of printable characters. -/
theorem jsonText_utc {d : Datetime} (hutc : d.offset = 0) (hd : InCalendar d) :
    d.jsonText.toList.all printable = true ∧ d.jsonText.length ≤ 64 := by
  obtain ⟨hlow, hhigh⟩ := hd
  obtain ⟨hyear, hmonth, hday⟩ := @civil_bounds (d.localTime / 86400000000) (by omega) (by omega)
  have hz : ['Z'].all printable = true := by decide
  rw [← String.length_toList]
  unfold Datetime.jsonText Datetime.naiveText Datetime.dateText Datetime.clockText
  rw [String.toList_ofList, if_pos hutc]
  generalize Datetime.civil (d.localTime / 86400000000) = date at hyear hmonth hday
  have hsecond : (d.localTime / 1000000 % 86400).toNat < 86400 := by omega
  have hmicros : (d.localTime % 1000000).toNat < 10 ^ 6 := by omega
  generalize (d.localTime / 1000000 % 86400).toNat = second at hsecond
  generalize (d.localTime % 1000000).toNat = micros at hmicros
  have hyearText : (Datetime.yearText date.1).all printable = true ∧
      (Datetime.yearText date.1).length ≤ 6 := by
    have hlen := length_pad (show 4 ≤ 5 by omega) (by omega) hyear
    unfold Datetime.yearText
    split
    · refine ⟨?_, ?_⟩
      · rw [List.all_cons, printable_pad]
        decide
      · rw [List.length_cons]
        omega
    · exact ⟨printable_pad, by omega⟩
  have hfraction : (Datetime.fractionText micros).all printable = true ∧
      (Datetime.fractionText micros).length ≤ 7 := by
    have hlen := length_pad (le_refl 6) (by omega) hmicros
    unfold Datetime.fractionText
    split
    · exact ⟨by decide, by decide⟩
    · refine ⟨?_, ?_⟩
      · rw [List.all_cons, printable_pad]
        decide
      · rw [List.length_cons]
        omega
  have hmonthLen := length_pad (le_refl 2) (by omega) hmonth
  have hdayLen := length_pad (le_refl 2) (by omega) hday
  have hhour := length_pad (le_refl 2) (by omega) (show second / 3600 < 10 ^ 2 by omega)
  have hminute := length_pad (le_refl 2) (by omega) (show second / 60 % 60 < 10 ^ 2 by omega)
  have hsec := length_pad (le_refl 2) (by omega) (show second % 60 < 10 ^ 2 by omega)
  refine ⟨?_, ?_⟩
  · simp only [List.all_append, List.all_cons, printable_pad, hyearText.1, hfraction.1, Bool.true_and,
      Bool.and_true]
    decide
  · simp only [List.length_append, List.length_cons, List.length_nil]
    omega

theorem validate_utc (htexts : texts.Lawful) {d : Datetime} (hutc : d.offset = 0) (hd : InCalendar d) :
    validateUntrustedText texts d.jsonText = .ok () := by
  obtain ⟨hprintable, hlength⟩ := jsonText_utc hutc hd
  exact validateUntrustedText_ok htexts hprintable (le_trans hlength (by decide))

/-! ## The document of a fact -/

theorem scalar_identifier (htexts : texts.Lawful) {i : String} (hi : isIdentifier i = true) :
    Scalar texts (.str i) := validate_identifier htexts hi

theorem scalar_digest (htexts : texts.Lawful) (d : Digest) : Scalar texts (.str d.val) :=
  validate_identifier htexts (isIdentifier_digest d)

theorem isIdentifier_value (t : InteroperabilityFactType) : isIdentifier t.value = true := by
  cases t <;> decide

/-- What `append` checks of a fact apart from its time: the identifiers, the number of facts, and the
    payload, one level below the root of the document. -/
structure Storable (texts : Texts) (c : AppendCall) (count : Nat) : Prop where
  fact : isIdentifier ("interop-fact-" ++ c.operationId ++ "-" ++ toString (count + 1)) = true
  operation : isIdentifier c.operationId = true
  command : isIdentifier c.commandRef = true
  peer : isIdentifier c.peerId = true
  room : count < 128
  members : c.payload.length ≤ 32
  numbers : normalizeJson 1 (.obj c.payload) = .ok ()
  bounds : boundJson texts 1 (.obj c.payload) = .ok ()

/-- The text that the digest of a fact is taken of. -/
def factText (c : AppendCall) (facts : List InteroperabilityFact) (recordedAt : String) : String :=
  canonicalJson (factMaterial c (previousDigest facts) (facts.length + 1) recordedAt)

/-- The material of a fact with room for its payload is within the bounds. -/
theorem factMaterial_ok (htexts : texts.Lawful) {c : AppendCall} {previous : Digest} {sequence : Nat}
    {recordedAt : String} (hoperation : isIdentifier c.operationId = true)
    (hid : isIdentifier ("interop-fact-" ++ c.operationId ++ "-" ++ toString sequence) = true)
    (hcommand : isIdentifier c.commandRef = true) (hpeer : isIdentifier c.peerId = true)
    (hnumbers : normalizeJson 1 (.obj c.payload) = .ok ())
    (hbounds : boundJson texts 1 (.obj c.payload) = .ok ())
    (htime : validateUntrustedText texts recordedAt = .ok ()) :
    digestValue sha texts (factMaterial c previous sequence recordedAt) =
      .ok (sha.hexdigest (canonicalJson (factMaterial c previous sequence recordedAt))) := by
  have hfields : ∀ f ∈ [("actor_ref", Json.str c.actorRef.val), ("command_ref", .str c.commandRef),
      ("fact_id", .str ("interop-fact-" ++ c.operationId ++ "-" ++ toString sequence)),
      ("fact_type", .str c.factType.value), ("operation_id", .str c.operationId),
      ("payload", .obj c.payload), ("peer_id", .str c.peerId), ("previous_digest", .str previous.val),
      ("recorded_at", .str recordedAt), ("schema_version", .int 1), ("sequence", .int sequence)],
      plainKey f.1 = true ∧ normalizeJson 1 f.2 = .ok () ∧ boundJson texts 1 f.2 = .ok () := by
    have hscalar : ∀ (key : String) (v : Json), plainKey key = true → Scalar texts v →
        plainKey key = true ∧ normalizeJson 1 v = .ok () ∧ boundJson texts 1 v = .ok () :=
      fun key v hkey hv => ⟨hkey, hv.normalize (by omega), hv.bound (by omega)⟩
    simp only [List.forall_mem_cons]
    refine ⟨hscalar _ _ (by decide) (scalar_identifier htexts c.actorRef.property),
      hscalar _ _ (by decide) (scalar_identifier htexts hcommand),
      hscalar _ _ (by decide) (scalar_identifier htexts hid),
      hscalar _ _ (by decide) (scalar_identifier htexts (isIdentifier_value _)),
      hscalar _ _ (by decide) (scalar_identifier htexts hoperation), ⟨by decide, hnumbers, hbounds⟩,
      hscalar _ _ (by decide) (scalar_identifier htexts hpeer),
      hscalar _ _ (by decide) (scalar_digest htexts previous), hscalar _ _ (by decide) htime,
      hscalar _ _ (by decide) trivial, hscalar _ _ (by decide) trivial, fun f hf => ?_⟩
    cases hf
  refine digestValue_ok ?_ ?_
  · unfold factMaterial normalizeJson
    exact normalizeFields_ok fun f hf => (hfields f hf).2.1
  · unfold factMaterial boundJson
    exact boundFields_ok htexts fun f hf => ⟨(hfields f hf).1, (hfields f hf).2.2⟩

/-- A document that has a digest has a payload within the bounds. -/
theorem factMaterial_payload {c : AppendCall} {previous : Digest} {sequence : Nat} {recordedAt : String}
    {d : Digest} (h : digestValue sha texts (factMaterial c previous sequence recordedAt) = .ok d) :
    normalizeJson 1 (.obj c.payload) = .ok () ∧ boundJson texts 1 (.obj c.payload) = .ok () ∧
      sha.hexdigest (canonicalJson (factMaterial c previous sequence recordedAt)) = d := by
  obtain ⟨hnormal, hbound, hd⟩ := digestValue_iff.mp h
  have hmem : ("payload", Json.obj c.payload) ∈ [("actor_ref", Json.str c.actorRef.val),
      ("command_ref", .str c.commandRef),
      ("fact_id", .str ("interop-fact-" ++ c.operationId ++ "-" ++ toString sequence)),
      ("fact_type", .str c.factType.value), ("operation_id", .str c.operationId),
      ("payload", .obj c.payload), ("peer_id", .str c.peerId), ("previous_digest", .str previous.val),
      ("recorded_at", .str recordedAt), ("schema_version", .int 1), ("sequence", .int sequence)] := by
    simp only [List.mem_cons, true_or, or_true]
  obtain ⟨-, hnormal⟩ := normalizeObj_iff.mp hnormal
  obtain ⟨-, -, hbound⟩ := boundObj_iff.mp hbound
  exact ⟨hnormal _ hmem, (boundFields_iff.mp hbound _ hmem).2.2, hd⟩

/-- **The two texts are one exactly in UTC.** -/
theorem factText_utc_iff {c : AppendCall} {facts : List InteroperabilityFact} :
    factText c facts c.recordedAt.jsonText = factText c facts c.recordedAt.utc.jsonText ↔
      c.recordedAt.offset = 0 := by
  constructor
  · intro h
    have hkeys : ["actor_ref", "command_ref", "fact_id", "fact_type", "operation_id", "payload", "peer_id",
        "previous_digest", "recorded_at", "schema_version", "sequence"].Nodup := by decide
    have hsame := (canonicalJson_inj.mp h).field (k := "recorded_at") hkeys
      (v := .str c.recordedAt.jsonText) (w := .str c.recordedAt.utc.jsonText)
      (by simp only [List.mem_cons, true_or, or_true]) (by simp only [List.mem_cons, true_or, or_true])
    have htime := Datetime.jsonText_inj (Json.same_str.mp hsame)
    rw [htime]
    rfl
  · intro h
    have hutc : c.recordedAt.utc = c.recordedAt := by
      show ({ c.recordedAt with offset := 0 } : Datetime) = _
      rw [← h]
    rw [hutc]

/-- What `append` builds: the digest is taken over the text in UTC. -/
theorem buildFact_digest {c : AppendCall} {facts : List InteroperabilityFact}
    {fact : InteroperabilityFact} (h : buildFact sha texts c facts = .ok fact) :
    Storable texts c facts.length ∧
      fact.factDigest = sha.hexdigest (factText c facts c.recordedAt.utc.jsonText) ∧
      fact.factDigest = sha.hexdigest (factText c facts c.recordedAt.jsonText) := by
  unfold buildFact at h
  obtain ⟨digest, hdigest, h⟩ := except_bind_ok.mp h
  obtain ⟨factId, hfact, h⟩ := except_bind_ok.mp h
  obtain ⟨operationId, hoperation, h⟩ := except_bind_ok.mp h
  obtain ⟨commandRef, hcommand, h⟩ := except_bind_ok.mp h
  obtain ⟨peerId, hpeer, h⟩ := except_bind_ok.mp h
  split at h
  · cases h
  rename_i hroom
  split at h
  · cases h
  rename_i hmembers
  obtain ⟨dumped, hdumped, h⟩ := except_bind_ok.mp h
  split at h
  · cases h
  rename_i hsame
  obtain ⟨hnumbers, hbounds, hutc⟩ := factMaterial_payload hdigest
  obtain ⟨-, -, hown⟩ := factMaterial_payload hdumped
  cases h
  refine ⟨⟨?_, ?_, ?_, ?_, by omega, by omega, hnumbers, hbounds⟩, hutc.symm, ?_⟩
  · rw [← parseIdentifier_ok hfact]
    exact factId.property
  · rw [← parseIdentifier_ok hoperation]
    exact operationId.property
  · rw [← parseIdentifier_ok hcommand]
    exact commandRef.property
  · rw [← parseIdentifier_ok hpeer]
    exact peerId.property
  · rw [← not_not.mp hsame]
    exact hown.symm

/-- **A fact is built exactly in UTC**, where it is storable. -/
theorem buildFact_iff (htexts : texts.Lawful) {c : AppendCall} {facts : List InteroperabilityFact}
    (htime : InCalendar c.recordedAt)
    (hsha : sha.CollisionFree {factText c facts c.recordedAt.jsonText,
      factText c facts c.recordedAt.utc.jsonText}) :
    (∃ fact, buildFact sha texts c facts = .ok fact) ↔
      c.recordedAt.offset = 0 ∧ Storable texts c facts.length := by
  constructor
  · rintro ⟨fact, h⟩
    obtain ⟨hstorable, hutc, hown⟩ := buildFact_digest h
    refine ⟨factText_utc_iff.mp (hsha.hexdigest ?_ ?_ (hown.symm.trans hutc)), hstorable⟩
    · exact Set.mem_insert _ _
    · exact Set.mem_insert_of_mem _ rfl
  · rintro ⟨hclock, hc⟩
    have hutc : c.recordedAt.utc = c.recordedAt := by
      show ({ c.recordedAt with offset := 0 } : Datetime) = _
      rw [← hclock]
    have hdigest := @factMaterial_ok sha _ htexts _ (previousDigest facts) _ _ hc.operation hc.fact hc.command
      hc.peer hc.numbers hc.bounds (validate_utc htexts hclock htime)
    unfold buildFact
    dsimp only
    rw [hutc, hdigest, parseIdentifier_of hc.fact, parseIdentifier_of hc.operation,
      parseIdentifier_of hc.command, parseIdentifier_of hc.peer]
    show ∃ fact, (if 128 < facts.length + 1 then _ else if 32 < c.payload.length then _ else _) = _
    have hroom := hc.room
    have hmembers := hc.members
    rw [if_neg (by omega), if_neg (by omega)]
    exact ⟨_, if_neg (not_not.mpr rfl)⟩

/-! ## Verification -/

/-- `fact.model_dump(mode="json", exclude={"fact_digest"})`, its members in order. -/
def InteroperabilityFact.material (f : InteroperabilityFact) : Json :=
  .obj [("actor_ref", .str f.actorRef.val), ("command_ref", .str f.commandRef.val),
    ("fact_id", .str f.factId.val), ("fact_type", .str f.factType.value),
    ("operation_id", .str f.operationId.val), ("payload", .obj f.payload), ("peer_id", .str f.peerId.val),
    ("previous_digest", .str f.previousDigest.val), ("recorded_at", .str f.recordedAt.jsonText),
    ("schema_version", .int 1), ("sequence", .int f.sequence)]

/-- The loop of `verify`: the sequence number and the digest that the next fact must name. -/
def verifyFrom (sha : Sha256) (texts : Texts) (previous : Digest) (sequence : Nat) :
    List InteroperabilityFact → Except Failure Bool
  | [] => .ok true
  | fact :: facts =>
    if fact.sequence ≠ sequence ∨ fact.previousDigest ≠ previous then .ok false
    else do
      let digest ← digestValue sha texts fact.material
      if digest ≠ fact.factDigest then .ok false
      else verifyFrom sha texts fact.factDigest (sequence + 1) facts

/-- `verify`. -/
def State.verify (sha : Sha256) (texts : Texts) (s : State) (operationId : String) : Except Failure Bool :=
  verifyFrom sha texts zeroHash 1 (s.facts operationId)

/-- A list of facts that goes on from a digest and a number, each fact with its own digest. -/
structure Chained (sha : Sha256) (texts : Texts) (previous : Digest) (sequence : Nat)
    (facts : List InteroperabilityFact) : Prop where
  linked : HashChain.Linked (·.previousDigest) (·.factDigest) previous facts
  numbered : facts.map (·.sequence) = List.range' sequence facts.length
  sealed : ∀ f ∈ facts, digestValue sha texts f.material = .ok f.factDigest

/-- **`verify` is true of the chained lists, and of no others.** -/
theorem verifyFrom_iff {facts : List InteroperabilityFact} : ∀ {previous : Digest} {sequence : Nat},
    verifyFrom sha texts previous sequence facts = .ok true ↔ Chained sha texts previous sequence facts := by
  induction facts with
  | nil => exact ⟨fun _ => ⟨trivial, rfl, fun f hf => by cases hf⟩, fun _ => rfl⟩
  | cons fact facts ih =>
    intro previous sequence
    unfold verifyFrom
    constructor
    · intro h
      split at h
      · cases h
      rename_i hplace
      obtain ⟨digest, hdigest, h⟩ := except_bind_ok.mp h
      split at h
      · cases h
      rename_i hsealed
      obtain ⟨hsequence, hprevious⟩ := not_or.mp hplace
      obtain ⟨hlinked, hnumbered, hrest⟩ := ih.mp h
      rw [not_not.mp hsealed] at hdigest
      refine ⟨⟨not_not.mp hprevious, hlinked⟩, ?_, List.forall_mem_cons.mpr ⟨hdigest, hrest⟩⟩
      rw [List.map_cons, hnumbered, List.length_cons, List.range'_succ, not_not.mp hsequence]
    · rintro ⟨⟨hprevious, hlinked⟩, hnumbered, hsealed⟩
      rw [List.map_cons, List.length_cons, List.range'_succ, List.cons.injEq] at hnumbered
      obtain ⟨hsequence, hnumbered⟩ := hnumbered
      have hplace : ¬(fact.sequence ≠ sequence ∨ fact.previousDigest ≠ previous) :=
        not_or.mpr ⟨not_not.mpr hsequence, not_not.mpr hprevious⟩
      rw [if_neg hplace, hsealed fact List.mem_cons_self]
      show (if fact.factDigest ≠ fact.factDigest then _ else verifyFrom sha texts fact.factDigest _ facts) = _
      rw [if_neg (not_not.mpr rfl)]
      exact ih.mpr ⟨hlinked, hnumbered, fun f hf => hsealed f (List.mem_cons_of_mem _ hf)⟩

/-- A fact that is built is chained to the list it is built on. -/
theorem Chained.append {c : AppendCall} {facts : List InteroperabilityFact} {fact : InteroperabilityFact}
    (hfacts : Chained sha texts zeroHash 1 facts) (h : buildFact sha texts c facts = .ok fact) :
    Chained sha texts zeroHash 1 (facts ++ [fact]) := by
  unfold buildFact at h
  obtain ⟨digest, -, h⟩ := except_bind_ok.mp h
  obtain ⟨factId, hfact, h⟩ := except_bind_ok.mp h
  obtain ⟨operationId, hoperation, h⟩ := except_bind_ok.mp h
  obtain ⟨commandRef, hcommand, h⟩ := except_bind_ok.mp h
  obtain ⟨peerId, hpeer, h⟩ := except_bind_ok.mp h
  split at h
  · cases h
  split at h
  · cases h
  obtain ⟨dumped, hdumped, h⟩ := except_bind_ok.mp h
  split at h
  · cases h
  rename_i hsame
  rw [not_not.mp hsame] at hdumped
  cases h
  refine ⟨HashChain.linked_concat.mpr ⟨hfacts.linked, ?_⟩, ?_, ?_⟩
  · show previousDigest facts = HashChain.lastDigest _ zeroHash facts
    unfold previousDigest HashChain.lastDigest
    cases facts.getLast? with
    | none => rfl
    | some last => rfl
  · rw [List.map_append, hfacts.numbered, List.length_append, List.length_singleton, List.range'_concat]
    show List.range' 1 facts.length ++ [facts.length + 1] = List.range' 1 facts.length ++ [1 + 1 * facts.length]
    rw [Nat.one_mul, Nat.add_comm]
  · rw [List.forall_mem_append]
    refine ⟨hfacts.sealed, List.forall_mem_singleton.mpr ?_⟩
    rw [← hdumped]
    unfold InteroperabilityFact.material factMaterial
    dsimp only
    rw [parseIdentifier_ok hfact, parseIdentifier_ok hoperation, parseIdentifier_ok hcommand,
      parseIdentifier_ok hpeer]

/-! ## Histories of the ledger -/

/-- The ledger after a history of calls, those that raise included. -/
def ledgerAfter (sha : Sha256) (texts : Texts) (history : List AppendCall) : State :=
  history.foldl (fun s c => (append sha texts c s).2) State.init

/-- One call keeps every operation chained. -/
theorem append_chained {s : State} {c : AppendCall}
    (hs : ∀ op, Chained sha texts zeroHash 1 (s.facts op)) :
    ∀ op, Chained sha texts zeroHash 1 ((append sha texts c s).2.facts op) := by
  have hout := append_outcome sha texts s c
  generalize append sha texts c s = out at hout
  cases hout with
  | recorded fact payloadDigest hnew hfact hversion =>
    intro op
    show Chained sha texts zeroHash 1
      (Function.update s.facts c.operationId (s.facts c.operationId ++ [fact]) op)
    by_cases hop : op = c.operationId
    · subst hop
      rw [Function.update_self]
      exact (hs c.operationId).append hfact
    · rw [Function.update_of_ne hop]
      exact hs op
  | known fact hmem hcommand hversion => exact hs
  | refused e => exact hs

/-- **Every operation verifies after every history.** -/
theorem ledger_verifies (history : List AppendCall) (op : String) :
    (ledgerAfter sha texts history).verify sha texts op = .ok true := by
  have hrun : ∀ (calls : List AppendCall) (s : State), (∀ op, Chained sha texts zeroHash 1 (s.facts op)) →
      ∀ op, Chained sha texts zeroHash 1
        ((calls.foldl (fun s c => (append sha texts c s).2) s).facts op) := by
    intro calls
    induction calls with
    | nil => exact fun s hs => hs
    | cons c calls ih => exact fun s hs => ih _ (append_chained hs)
  have hinit : ∀ op, Chained sha texts zeroHash 1 (State.init.facts op) :=
    fun op => ⟨trivial, rfl, fun f hf => by cases hf⟩
  exact verifyFrom_iff.mpr (hrun history State.init hinit op)

/-- A new command with a fact that is built and the next version is recorded; otherwise the call raises. -/
theorem append_new {s : State} {c : AppendCall} {fact : InteroperabilityFact}
    (hraw : rejectRawLedgerPayload texts c.payload = .ok ()) (hnew : s.commands c.commandRef = none)
    (hversion : ∀ p ∈ c.projection, p.version = s.nextVersion c.operationId) :
    (∃ s', append sha texts c s = (.ok fact, s')) ↔
      buildFact sha texts c (s.facts c.operationId) = .ok fact := by
  constructor
  · rintro ⟨s', hrun⟩
    have hsat : Exec.Sat (append sha texts c) s
        (fun fact _ => buildFact sha texts c (s.facts c.operationId) = .ok fact) (fun _ _ => True) := by
      unfold append
      refine Exec.Sat.attempt (fun _ _ => trivial) fun _ _ => ?_
      refine Exec.Sat.attempt (fun _ _ => trivial) fun payloadDigest _ => ?_
      rw [Exec.sat_bind, Exec.sat_read, hnew]
      refine Exec.Sat.attempt (fun _ _ => trivial) fun fact hfact => ?_
      exact Exec.Sat.check (fun _ => trivial) fun _ => hfact
    exact hsat.ok hrun
  · intro hfact
    obtain ⟨hstorable, -, -⟩ := buildFact_digest hfact
    have hdigest : digestValue sha texts (.obj c.payload) =
        .ok (sha.hexdigest (canonicalJson (.obj c.payload))) :=
      digestValue_ok (normalizeJson_mono (Nat.zero_le 1) _ hstorable.numbers)
        (boundJson_mono (Nat.zero_le 1) _ hstorable.bounds)
    exact ⟨_, append_records hraw hdigest hnew hfact hversion⟩

/-- **The ledger accepts a fact exactly in UTC.**  After any history, a new command with a payload that is
    admitted and the next version is recorded, and then verified, if and only if its time is in UTC and its
    fact is storable.  Facts of one instant have one digest, whatever offsets they came with; and a call
    that raises leaves the ledger as it was. -/
theorem append_accepts_iff (sha : Sha256) (texts : Texts) (htexts : texts.Lawful)
    (history : List AppendCall) (c : AppendCall) (htime : InCalendar c.recordedAt)
    (hraw : rejectRawLedgerPayload texts c.payload = .ok ())
    (hnew : (ledgerAfter sha texts history).commands c.commandRef = none)
    (hversion : ∀ p ∈ c.projection, p.version = (ledgerAfter sha texts history).nextVersion c.operationId)
    (hsha : sha.CollisionFree
      {factText c ((ledgerAfter sha texts history).facts c.operationId) c.recordedAt.jsonText,
        factText c ((ledgerAfter sha texts history).facts c.operationId) c.recordedAt.utc.jsonText}) :
    ((∃ fact s', append sha texts c (ledgerAfter sha texts history) = (.ok fact, s') ∧
        s'.verify sha texts c.operationId = .ok true) ↔
      c.recordedAt.offset = 0 ∧
        Storable texts c ((ledgerAfter sha texts history).facts c.operationId).length) ∧
    (∀ (offset : Int) fact s' fact' s'',
      append sha texts c (ledgerAfter sha texts history) = (.ok fact, s') →
      append sha texts { c with recordedAt := ⟨c.recordedAt.instant, offset⟩ }
        (ledgerAfter sha texts history) = (.ok fact', s'') → fact'.factDigest = fact.factDigest) ∧
    (∀ e s', append sha texts c (ledgerAfter sha texts history) = (.error e, s') →
      s' = ledgerAfter sha texts history) := by
  have hverifies : ∀ r s', append sha texts c (ledgerAfter sha texts history) = (r, s') →
      s'.verify sha texts c.operationId = .ok true := by
    intro r s' hrun
    have hafter : ledgerAfter sha texts (history ++ [c]) = s' := by
      unfold ledgerAfter at hrun ⊢
      rw [List.foldl_append, List.foldl_cons, List.foldl_nil, hrun]
    rw [← hafter]
    exact ledger_verifies _ _
  generalize ledgerAfter sha texts history = s at hnew hversion hsha hverifies ⊢
  refine ⟨?_, fun offset fact s' fact' s'' hrun hrun' => ?_, fun e s' hrun => ?_⟩
  · rw [← buildFact_iff htexts htime hsha]
    constructor
    · rintro ⟨fact, s', hrun, -⟩
      exact ⟨fact, (append_new hraw hnew hversion).mp ⟨s', hrun⟩⟩
    · rintro ⟨fact, hfact⟩
      obtain ⟨s', hrun⟩ := (append_new hraw hnew hversion).mpr hfact
      exact ⟨fact, s', hrun, hverifies _ _ hrun⟩
  · obtain ⟨-, hdigest, -⟩ := buildFact_digest ((append_new hraw hnew hversion).mp ⟨s', hrun⟩)
    -- the text in UTC does not depend on the offset
    obtain ⟨-, hdigest', -⟩ := buildFact_digest
      ((append_new (c := { c with recordedAt := ⟨c.recordedAt.instant, offset⟩ }) hraw hnew hversion).mp
        ⟨s'', hrun'⟩)
    rw [hdigest, hdigest']
    rfl
  · have hout := append_outcome sha texts s c
    rw [hrun] at hout
    cases hout
    rfl

/-- A call whose payload is a reference. -/
def referenceCall (offset : Int) : AppendCall :=
  { nestedCall with payload := [("fence_token", .str "fence")], recordedAt := ⟨0, offset⟩ }

/-- A hash that tells the local hour of such a call. -/
def hourSha : Sha256 := .byChar 315

theorem referenceCall_ready (offset : Int) :
    rejectRawLedgerPayload sampleTexts (referenceCall offset).payload = .ok () ∧
      (ledgerAfter hourSha sampleTexts []).commands (referenceCall offset).commandRef = none ∧
      ∀ p ∈ (referenceCall offset).projection,
        p.version = (ledgerAfter hourSha sampleTexts []).nextVersion (referenceCall offset).operationId := by
  have hraw : rejectRawLedgerPayload sampleTexts [("fence_token", .str "fence")] = .ok () := by
    decide +kernel
  exact ⟨hraw, rfl, fun p hp => by cases hp⟩

theorem referenceCall_storable (offset : Int) : Storable sampleTexts (referenceCall offset) 0 where
  fact := show isIdentifier ("interop-fact-" ++ "operation" ++ "-" ++ toString 1) = true by decide
  operation := show isIdentifier "operation" = true by decide
  command := show isIdentifier "command" = true by decide
  peer := show isIdentifier "peer" = true by decide
  room := by omega
  members := show 1 ≤ 32 by omega
  numbers := show normalizeJson 1 (.obj [("fence_token", .str "fence")]) = .ok () by decide +kernel
  bounds := show boundJson sampleTexts 1 (.obj [("fence_token", .str "fence")]) = .ok () by decide +kernel

/-- The members of its document are in order already. -/
theorem referenceText (offset : Int) (recordedAt : String) :
    factText (referenceCall offset) [] recordedAt =
      String.ofList (dump (factMaterial (referenceCall offset) zeroHash 1 recordedAt)) := by
  have hkeys : ["actor_ref", "command_ref", "fact_id", "fact_type", "operation_id", "payload", "peer_id",
      "previous_digest", "recorded_at", "schema_version", "sequence"].Pairwise (· ≤ ·) := by decide
  have hsorted : sortKeys (factMaterial (referenceCall offset) zeroHash 1 recordedAt) =
      factMaterial (referenceCall offset) zeroHash 1 recordedAt := by
    unfold factMaterial
    rw [sortKeys_obj (by exact hkeys)]
    rfl
  show String.ofList (dump (sortKeys (factMaterial (referenceCall offset) zeroHash 1 recordedAt))) = _
  rw [hsorted]

/-- Its hour stands at one place of the text. -/
theorem referenceText_hours :
    (dump (factMaterial (referenceCall 330) zeroHash 1 (referenceCall 330).recordedAt.jsonText)).getD 315 'a' =
        '5' ∧
      (dump (factMaterial (referenceCall 330) zeroHash 1
        (referenceCall 330).recordedAt.utc.jsonText)).getD 315 'a' = '0' := by decide +kernel

/-- In UTC the call is recorded, and five and a half hours further east it is not. -/
theorem referenceCall_runs :
    (append hourSha sampleTexts (referenceCall 0) State.init).1.isOk = true ∧
      (append hourSha sampleTexts (referenceCall 330) State.init).1.isOk = false := by
  obtain ⟨hraw, hnew, hversion⟩ := referenceCall_ready 0
  obtain ⟨hraw', hnew', hversion'⟩ := referenceCall_ready 330
  constructor
  · have hbuild : ∃ fact, buildFact hourSha sampleTexts (referenceCall 0) [] = .ok fact := by
      refine (buildFact_iff (fun _ _ => rfl) (by decide) ?_).mpr ⟨rfl, referenceCall_storable 0⟩
      have hsame : (referenceCall 0).recordedAt.utc = (referenceCall 0).recordedAt := rfl
      rw [hsame, Set.pair_eq_singleton]
      exact Sha256.CollisionFree.of_subsingleton Set.subsingleton_singleton
    obtain ⟨fact, hfact⟩ := hbuild
    obtain ⟨s', hrun⟩ := (append_new hraw hnew hversion).mpr hfact
    have hrun : append hourSha sampleTexts (referenceCall 0) State.init = (.ok fact, s') := hrun
    rw [hrun]
    rfl
  · cases hrun : append hourSha sampleTexts (referenceCall 330) State.init with
    | mk r s' =>
      cases r with
      | error e => rfl
      | ok fact =>
        -- the two texts differ where the hash looks
        have hbuild : buildFact hourSha sampleTexts (referenceCall 330) [] = .ok fact :=
          (append_new hraw' hnew' hversion').mp ⟨s', hrun⟩
        obtain ⟨-, hutc, hown⟩ := buildFact_digest hbuild
        have hdigits : List.replicate 64 (hexDigit ('0'.toNat % 16)) =
            List.replicate 64 (hexDigit ('5'.toNat % 16)) := by
          have hsame := String.ofList_inj.mp (congrArg Subtype.val (hutc.symm.trans hown))
          unfold hourSha Sha256.byChar at hsame
          dsimp only at hsame
          rw [referenceText, referenceText, String.toList_ofList, String.toList_ofList, referenceText_hours.1,
            referenceText_hours.2] at hsame
          exact hsame
        exact absurd hdigits (by decide)

theorem append_accepts_sample :
    (∃ fact s', append hourSha sampleTexts (referenceCall 0) (ledgerAfter hourSha sampleTexts []) =
        (.ok fact, s') ∧ s'.verify hourSha sampleTexts "operation" = .ok true) := by
  obtain ⟨hraw, hnew, hversion⟩ := referenceCall_ready 0
  have hsame : (referenceCall 0).recordedAt.utc = (referenceCall 0).recordedAt := rfl
  refine (append_accepts_iff hourSha sampleTexts (fun _ _ => rfl) [] (referenceCall 0) (by decide) hraw hnew
    hversion ?_).1.mpr ⟨rfl, referenceCall_storable 0⟩
  rw [hsame, Set.pair_eq_singleton]
  exact Sha256.CollisionFree.of_subsingleton Set.subsingleton_singleton

/-- The same instant in another offset is refused, though all the rest is in order. -/
theorem offset_refused :
    rejectRawLedgerPayload sampleTexts (referenceCall 330).payload = .ok () ∧
      State.init.commands (referenceCall 330).commandRef = none ∧
      (State.init.facts (referenceCall 330).operationId).length < 128 ∧
      Storable sampleTexts (referenceCall 330) 0 ∧
      (referenceCall 330).recordedAt.instant = (referenceCall 0).recordedAt.instant ∧
      (append hourSha sampleTexts (referenceCall 0) State.init).1.isOk = true ∧
      ∀ fact s', append hourSha sampleTexts (referenceCall 330) State.init ≠ (.ok fact, s') := by
  obtain ⟨haccepted, hrefused⟩ := referenceCall_runs
  obtain ⟨hraw, hnew, -⟩ := referenceCall_ready 330
  refine ⟨hraw, hnew, Nat.zero_lt_succ _, referenceCall_storable 330, rfl, haccepted, fun fact s' hrun => ?_⟩
  rw [hrun] at hrefused
  cases hrefused

end Interop

end Aegis
