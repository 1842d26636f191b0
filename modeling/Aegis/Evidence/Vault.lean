/-
  THE VAULT OF CURSORS: what is sealed for a query opens for that query, and for no other.

  The cipher is an IDEAL one: it decrypts what was encrypted under the same nonce and for the same query,
  and nothing else.  What `seal` adds is the nonce and a tag, 28 bytes.

  `seal` counts the CHARACTERS of a value, `open` the BYTES of what was sealed.  A value of more than 4100
  bytes is sealed and does not open again.
-/
import Mathlib
import Aegis.Evidence.Store

namespace Aegis

namespace Evidence

/-! ## Sealings -/

/-- A call of `seal`, with the nonce that was drawn. -/
structure Sealing where
  value : String
  tenantId : Identifier
  queryId : Identifier
  nonce : List UInt8

def Sealing.key (s : Sealing) : Key := (s.tenantId.val, s.queryId.val)

/-- What the vault encrypts in these calls: nonces, texts and the data they are bound to. -/
def encryptions (vault : CursorVault) (sealings : Set Sealing) : Set (List UInt8 × ByteArray × String) :=
  {r | ∃ s ∈ sealings, (∃ bytes, vault.seal s.value s.key s.nonce = .ok bytes) ∧
    r = (s.nonce, s.value.toUTF8, associatedData s.key)}

/-- An ideal authenticated cipher with a tag of 16 bytes, that has encrypted these. -/
structure CursorVault.Ideal (vault : CursorVault) (encrypted : Set (List UInt8 × ByteArray × String)) :
    Prop where
  overhead : ∀ nonce plain aad, (vault.encrypt nonce plain aad).length = plain.size + 16
  genuine : ∀ nonce plain aad, (nonce, plain, aad) ∈ encrypted →
    vault.decrypt nonce (vault.encrypt nonce plain aad) aad = some plain
  authentic : ∀ nonce ciphertext aad plain, vault.decrypt nonce ciphertext aad = some plain →
    (nonce, plain, aad) ∈ encrypted ∧ ciphertext = vault.encrypt nonce plain aad

/-- A query's data are its tenant and its identifier, in one way. -/
theorem associatedData_inj {t q t' q' : Identifier}
    (h : associatedData (t.val, q.val) = associatedData (t'.val, q'.val)) : t = t' ∧ q = q' := by
  have hparts : ∀ a b : String, associatedData (a, b) = joinParts [a, b] := by
    intro a b
    apply String.toList_inj.mp
    simp only [associatedData, joinParts, List.map_cons, List.map_nil, String.toList_append,
      String.toList_ofList, List.intercalate, List.intersperse, List.flatten_cons, List.flatten_nil,
      List.append_nil, List.append_assoc]
  rw [hparts, hparts] at h
  have hpair := joinParts_inj (by simp [Identifier.nulFree]) (by simp [Identifier.nulFree]) (by simp)
    (by simp) h
  simp only [List.cons.injEq, and_true] at hpair
  exact ⟨Subtype.ext hpair.1, Subtype.ext hpair.2⟩

theorem decode_encode (value : String) : String.fromUTF8? value.toUTF8 = some value := by
  simp only [String.fromUTF8?, String.toUTF8_eq_toByteArray, dif_pos value.isValidUTF8]
  rfl

/-- What `seal` accepts, and what it returns. -/
theorem seal_ok {vault : CursorVault} {value : String} {key : Key} {nonce bytes : List UInt8}
    (h : vault.seal value key nonce = .ok bytes) :
    value.toList.length ≠ 0 ∧ value.toList.length ≤ 4096 ∧ nonce.length = 12 ∧
      bytes = nonce ++ vault.encrypt nonce value.toUTF8 (associatedData key) := by
  unfold CursorVault.seal at h
  split at h
  · cases h
  · rename_i hvalue
    obtain ⟨hfilled, hshort⟩ := not_or.mp hvalue
    split at h
    · cases h
    · rename_i hnonce
      exact ⟨hfilled, not_lt.mp hshort, not_not.mp hnonce, (Except.ok.inj h).symm⟩

section

variable {vault : CursorVault} {sealings : Set Sealing}

/-- What is sealed opens again when it is not too long in bytes. -/
theorem CursorVault.Ideal.open_iff (h : vault.Ideal (encryptions vault sealings)) {s : Sealing}
    {bytes : List UInt8} (hs : s ∈ sealings) (hseal : vault.seal s.value s.key s.nonce = .ok bytes) :
    vault.open bytes s.key = .ok s.value ↔ s.value.toUTF8.size ≤ 4100 := by
  obtain ⟨hfilled, hshort, hnonce, rfl⟩ := seal_ok hseal
  have hplain := h.genuine s.nonce s.value.toUTF8 (associatedData s.key) ⟨s, hs, ⟨_, hseal⟩, rfl⟩
  have hlength : (s.nonce ++ vault.encrypt s.nonce s.value.toUTF8 (associatedData s.key)).length =
      s.value.toUTF8.size + 28 := by
    rw [List.length_append, hnonce, h.overhead]
    omega
  have hsize : 0 < s.value.toUTF8.size := by
    rcases Nat.eq_zero_or_pos s.value.toUTF8.size with hzero | hpos
    · have hempty : s.value = "" := String.utf8ByteSize_eq_zero_iff.mp hzero
      rw [hempty] at hfilled
      exact absurd rfl hfilled
    · exact hpos
  unfold CursorVault.open
  rw [hlength]
  constructor
  · intro hopen
    by_contra hlong
    rw [if_pos (.inr (by omega))] at hopen
    cases hopen
  · intro hsmall
    rw [if_neg (by omega), List.take_left' hnonce, List.drop_left' hnonce, hplain, Option.bind_some,
      decode_encode]
    dsimp only
    rw [if_neg (by omega)]

/-- What opens for a query was sealed for it. -/
theorem CursorVault.Ideal.open_bound (h : vault.Ideal (encryptions vault sealings)) (bytes : List UInt8)
    (tenantId queryId : Identifier) :
    (∃ message, vault.open bytes (tenantId.val, queryId.val) = .error ⟨.integrityFailure, message⟩) ∨
      ∃ s ∈ sealings, s.tenantId = tenantId ∧ s.queryId = queryId ∧
        vault.seal s.value s.key s.nonce = .ok bytes ∧
        vault.open bytes (tenantId.val, queryId.val) = .ok s.value := by
  unfold CursorVault.open
  split
  · exact .inl ⟨_, rfl⟩
  split
  · exact .inl ⟨_, rfl⟩
  rename_i decoded hdecoded
  split
  · exact .inl ⟨_, rfl⟩
  obtain ⟨plain, hplain, hutf8⟩ := Option.bind_eq_some_iff.mp hdecoded
  obtain ⟨⟨s, hs, ⟨sealed, hseal⟩, hrecord⟩, hcipher⟩ := h.authentic _ _ _ _ hplain
  obtain ⟨hnonce, htext, hdata⟩ : bytes.take 12 = s.nonce ∧ plain = s.value.toUTF8 ∧
      associatedData (tenantId.val, queryId.val) = associatedData s.key := by
    simpa only [Prod.mk.injEq] using hrecord
  obtain ⟨rfl, rfl⟩ := associatedData_inj hdata
  rw [htext, decode_encode] at hutf8
  obtain ⟨-, -, -, hsealed⟩ := seal_ok hseal
  have hbytes : sealed = bytes := by
    rw [hsealed, ← hnonce, ← htext]
    exact (congrArg (bytes.take 12 ++ ·) hcipher).symm.trans (List.take_append_drop 12 bytes)
  rw [hbytes] at hseal
  exact .inr ⟨s, hs, rfl, rfl, hseal, congrArg Except.ok (Option.some.inj hutf8).symm⟩

/-- **Cursors open for the query they were sealed for, exactly when they have at most 4100 bytes.** -/
theorem cursors_bound (h : vault.Ideal (encryptions vault sealings)) :
    (∀ s ∈ sealings, ∀ bytes, vault.seal s.value s.key s.nonce = .ok bytes →
      (vault.open bytes s.key = .ok s.value ↔ s.value.toUTF8.size ≤ 4100)) ∧
    ∀ bytes (tenantId queryId : Identifier),
      (∃ message, vault.open bytes (tenantId.val, queryId.val) = .error ⟨.integrityFailure, message⟩) ∨
        ∃ s ∈ sealings, s.tenantId = tenantId ∧ s.queryId = queryId ∧
          vault.seal s.value s.key s.nonce = .ok bytes ∧
          vault.open bytes (tenantId.val, queryId.val) = .ok s.value :=
  ⟨fun _ hs _ hseal => h.open_iff hs hseal, h.open_bound⟩

end

/-! ## A vault that remembers -/

/-- A cipher that adds a tag of zeros, and decrypts what is in its list. -/
def listVault (records : List (List UInt8 × ByteArray × String)) : CursorVault where
  encrypt := fun _ plain _ => plain.data.toList ++ List.replicate 16 0
  decrypt := fun nonce ciphertext aad =>
    (records.find? fun r => decide (r.1 = nonce) && decide (r.2.2 = aad)
      && decide (r.2.1.data.toList ++ List.replicate 16 0 = ciphertext)).map fun r => r.2.1
  nonce := fun _ => List.replicate 12 0

theorem listVault_ideal (records : List (List UInt8 × ByteArray × String)) :
    (listVault records).Ideal {r | r ∈ records} where
  overhead := fun nonce plain aad => by
    show (plain.data.toList ++ List.replicate 16 0).length = _
    rw [List.length_append, List.length_replicate]
    rfl
  genuine := fun nonce plain aad hmem => by
    have hmatch : ∀ r : List UInt8 × ByteArray × String, (decide (r.1 = nonce) && decide (r.2.2 = aad)
        && decide (r.2.1.data.toList ++ List.replicate 16 0 =
          plain.data.toList ++ List.replicate 16 0)) = true ↔ r = (nonce, plain, aad) := by
      rintro ⟨n, p, a⟩
      simp only [Bool.and_eq_true, decide_eq_true_eq, List.append_cancel_right_eq, Array.toList_inj,
        Prod.mk.injEq]
      constructor
      · rintro ⟨⟨rfl, rfl⟩, hdata⟩
        exact ⟨rfl, ByteArray.ext hdata, rfl⟩
      · rintro ⟨rfl, rfl, rfl⟩
        exact ⟨⟨rfl, rfl⟩, rfl⟩
    show (records.find? _).map _ = some plain
    cases hfind : records.find? fun r => decide (r.1 = nonce) && decide (r.2.2 = aad)
        && decide (r.2.1.data.toList ++ List.replicate 16 0 = plain.data.toList ++ List.replicate 16 0) with
    | none => exact absurd ((hmatch _).mpr rfl) (List.find?_eq_none.mp hfind _ hmem)
    | some r =>
      have hr := List.find?_some (p := fun r : List UInt8 × ByteArray × String => decide (r.1 = nonce) && decide (r.2.2 = aad)
        && decide (r.2.1.data.toList ++ List.replicate 16 0 = plain.data.toList ++ List.replicate 16 0)) hfind
      obtain rfl := (hmatch r).mp hr
      exact congrArg (Option.map fun r => r.2.1) hfind
  authentic := fun nonce ciphertext aad plain h => by
    obtain ⟨⟨n, p, a⟩, hfind, rfl⟩ := Option.map_eq_some_iff.mp h
    have hmatch := List.find?_some hfind
    simp only [Bool.and_eq_true, decide_eq_true_eq] at hmatch
    obtain ⟨⟨rfl, rfl⟩, hcipher⟩ := hmatch
    exact ⟨List.mem_of_find?_eq_some hfind, hcipher.symm⟩

def sampleSealing (value : String) : Sealing where
  value := value
  tenantId := ⟨"tenant", computed⟩
  queryId := ⟨"query", computed⟩
  nonce := List.replicate 12 0

def cursorVault (value : String) : CursorVault :=
  listVault [(List.replicate 12 0, value.toUTF8, associatedData ("tenant", "query"))]

theorem sampleVault_ideal {value : String} (hfilled : value.toList.length ≠ 0)
    (hshort : value.toList.length ≤ 4096) :
    (cursorVault value).Ideal (encryptions (cursorVault value) {sampleSealing value}) := by
  have hset : encryptions (cursorVault value) {sampleSealing value} =
      {r | r ∈ [(List.replicate 12 0, value.toUTF8, associatedData ("tenant", "query"))]} := by
    ext r
    constructor
    · rintro ⟨s, rfl, -, rfl⟩
      exact List.mem_singleton_self _
    · intro hr
      refine ⟨_, rfl, ?_, List.mem_singleton.mp hr⟩
      show ∃ bytes, (cursorVault value).seal value ("tenant", "query") (List.replicate 12 0) = .ok bytes
      unfold CursorVault.seal
      rw [if_neg (not_or.mpr ⟨hfilled, not_lt.mpr hshort⟩), if_neg (by decide)]
      exact ⟨_, rfl⟩
  rw [hset]
  exact listVault_ideal _

/-- A short cursor opens again. -/
theorem cursors_bound_sample : ∃ bytes,
    (cursorVault "next").seal "next" ("tenant", "query") (List.replicate 12 0) = .ok bytes ∧
    (cursorVault "next").open bytes ("tenant", "query") = .ok "next" := by
  refine ⟨_, rfl, ?_⟩
  have hideal : (cursorVault "next").Ideal _ := sampleVault_ideal (by decide) (by decide)
  exact ((cursors_bound hideal).1 (sampleSealing "next") rfl _ rfl).mpr (by decide)

theorem size_replicate (n : Nat) : (String.ofList (List.replicate n 'é')).toUTF8.size = 2 * n := by
  induction n with
  | zero => rfl
  | succ n ih =>
    have hsplit : String.ofList (List.replicate (n + 1) 'é') =
        String.singleton 'é' ++ String.ofList (List.replicate n 'é') := by
      apply String.toList_inj.mp
      rw [String.toList_append, String.toList_ofList, String.toList_ofList, String.toList_singleton]
      rfl
    have hbytes : (String.singleton 'é' ++ String.ofList (List.replicate n 'é')).utf8ByteSize =
        2 + (String.ofList (List.replicate n 'é')).utf8ByteSize := by
      rw [String.utf8ByteSize_append, String.utf8ByteSize_singleton]
      rfl
    rw [hsplit]
    have hrest : (String.ofList (List.replicate n 'é')).utf8ByteSize = 2 * n := ih
    show (String.singleton 'é' ++ String.ofList (List.replicate n 'é')).utf8ByteSize = 2 * (n + 1)
    omega

/-- A cursor of 2051 characters is sealed and does not open again. -/
theorem long_cursor_lost :
    ¬∀ (vault : CursorVault) (sealings : Set Sealing), vault.Ideal (encryptions vault sealings) →
      ∀ s ∈ sealings, ∀ bytes, vault.seal s.value s.key s.nonce = .ok bytes →
        vault.open bytes s.key = .ok s.value := by
  intro h
  have hlength : (String.ofList (List.replicate 2051 'é')).toList.length = 2051 := by
    rw [String.toList_ofList, List.length_replicate]
  have hideal : (cursorVault (String.ofList (List.replicate 2051 'é'))).Ideal _ :=
    sampleVault_ideal (by omega) (by omega)
  obtain ⟨bytes, hseal⟩ : ∃ bytes, (cursorVault (String.ofList (List.replicate 2051 'é'))).seal
      (String.ofList (List.replicate 2051 'é')) ("tenant", "query") (List.replicate 12 0) = .ok bytes := by
    unfold CursorVault.seal
    rw [hlength, if_neg (by decide), if_neg (by decide)]
    exact ⟨_, rfl⟩
  have hopen := h _ _ hideal (sampleSealing _) rfl bytes hseal
  have hsize := (hideal.open_iff (s := sampleSealing _) rfl hseal).mp hopen
  rw [show (sampleSealing (String.ofList (List.replicate 2051 'é'))).value =
    String.ofList (List.replicate 2051 'é') from rfl, size_replicate] at hsize
  omega

end Evidence

end Aegis
