/-
  CANONICAL TEXTS: is the canonical text of a canonical text the same text?

  A text is normalized (NFC), its newlines are folded, its control characters are removed, and its lines are
  stripped.  Folding and stripping settle at once.  Removing a control character can bring two characters
  together that normalization composes: then the second pass composes them, and the text changes again.

  Of normalization it is used that it works word by word (`Normalizes`): whitespace composes with nothing.
-/
import Mathlib
import Aegis.Lib.Text
import Aegis.Memory.Chunker
import Aegis.Evidence.Ingestion

namespace Aegis

namespace Canonical

open Memory (keptChar replaceCrLf)
open Text (isSpace isLineBreak words foldLines cut_induction)

/-! ## Normalization -/

/-- Normalization of a list of characters. -/
def normal (nfc : String → String) (cs : List Char) : List Char := (nfc (String.ofList cs)).toList

/-- What is known of normalization: it is idempotent, a line feed is normal, whitespace stays whitespace and
    composes with nothing, and nothing else becomes whitespace or a control character. -/
structure Normalizes (nfc : String → String) : Prop where
  idempotent : ∀ s, nfc (nfc s) = nfc s
  feed : normal nfc ['\n'] = ['\n']
  boundary : ∀ a c b, isSpace c = true → normal nfc (a ++ c :: b) = normal nfc a ++ normal nfc [c] ++ normal nfc b
  space : ∀ c, isSpace c = true → ∃ d, isSpace d = true ∧ normal nfc [c] = [d]
  word : ∀ w, (∀ c ∈ w, isSpace c = false) → ∀ c ∈ normal nfc w, isSpace c = false
  printable : ∀ w, (∀ c ∈ w, 32 ≤ c.toNat) → ∀ c ∈ normal nfc w, 32 ≤ c.toNat

/-- The normalized text, with its newlines folded and its control characters removed. -/
def cleaned (nfc : String → String) (value : String) : List Char :=
  ((replaceCrLf (nfc value).toList).map fun c => if c = '\r' then '\n' else c).filter keptChar

/-- Libraries that normalize texts for `_canonical_text` as `canonical_text` does. -/
def reading (nfc : String → String) (libs : Evidence.Libraries) : Evidence.Libraries :=
  { libs with normalized := fun value => String.ofList (Memory.canonicalChars nfc value) }

theorem reading_canonical (nfc : String → String) (libs : Evidence.Libraries) (policy : Evidence.IngestionPolicy)
    (value : String) : Evidence.canonicalText (reading nfc libs) policy value =
      if policy.maximumTextChars < (String.ofList (Memory.canonicalChars nfc value)).toList.length then
        .error ⟨.connectorRejected, "canonical evidence exceeds the text bound"⟩
      else .ok (String.ofList (Memory.canonicalChars nfc value)) := rfl

theorem canonicalChars_eq (nfc : String → String) (value : String) :
    Memory.canonicalChars nfc value = foldLines (cleaned nfc value) := rfl

section

variable {nfc : String → String} (h : Normalizes nfc)

include h

theorem normal_nil : normal nfc [] = [] := by
  have hfeed := congrArg List.length (h.boundary [] '\n' [] (by decide))
  rw [List.nil_append, h.feed, List.length_append, List.length_append, List.length_singleton] at hfeed
  exact List.length_eq_zero_iff.mp (by omega)

/-- A text is normal when its words and its whitespace are. -/
theorem normal_iff (cs : List Char) : normal nfc cs = cs ↔
    (∀ w ∈ words cs, normal nfc w = w) ∧ ∀ c ∈ cs, isSpace c = true → normal nfc [c] = [c] := by
  induction cs using cut_induction isSpace with
  | last w hw =>
    rw [Text.words_part hw]
    constructor
    · intro hnormal
      refine ⟨fun v hv => ?_, fun c hc hspace => ?_⟩
      · split at hv
        · cases hv
        · rwa [List.mem_singleton.mp hv]
      · rw [hw c hc] at hspace
        cases hspace
    · rintro ⟨hwords, -⟩
      split at hwords
      · rename_i hnil
        rw [hnil, normal_nil h]
      · exact hwords w List.mem_cons_self
  | step w x rest hw hx ih =>
    obtain ⟨d, hd, hxd⟩ := h.space x hx
    rw [h.boundary w x rest hx, hxd, List.append_assoc, List.singleton_append, Text.words_append hx,
      Text.words_part hw]
    constructor
    · intro hnormal
      obtain ⟨hfront, hmiddle, hback⟩ := Text.first_split (h.word w hw) hw hd hx hnormal
      obtain ⟨hwords, hspaces⟩ := ih.mp hback
      refine ⟨fun v hv => ?_, fun c hc hspace => ?_⟩
      · rcases List.mem_append.mp hv with hv | hv
        · split at hv
          · cases hv
          · rwa [List.mem_singleton.mp hv]
        · exact hwords v hv
      · rcases List.mem_append.mp hc with hc | hc
        · rw [hw c hc] at hspace
          cases hspace
        · rcases List.mem_cons.mp hc with rfl | hc
          · rw [hxd, hmiddle]
          · exact hspaces c hc hspace
    · rintro ⟨hwords, hspaces⟩
      have hback := ih.mpr ⟨fun v hv => hwords v (List.mem_append_right _ hv),
        fun c hc => hspaces c (List.mem_append_right _ (List.mem_cons_of_mem _ hc))⟩
      have hmiddle : [d] = [x] := by
        rw [← hxd]
        exact hspaces x (List.mem_append_right _ List.mem_cons_self) hx
      have hfront : normal nfc w = w := by
        rcases eq_or_ne w [] with rfl | hne
        · exact normal_nil h
        · exact hwords w (List.mem_append_left _ (by rw [if_neg hne]; exact List.mem_singleton_self w))
      rw [hback, hfront, (List.cons.inj hmiddle).1]

/-- The words of a normalized text whose whitespace is normal. -/
theorem words_normal (cs : List Char) (hspaces : ∀ c ∈ cs, isSpace c = true → normal nfc [c] = [c]) :
    words (normal nfc cs) = ((words cs).map (normal nfc)).filter (· ≠ []) := by
  have hpart : ∀ w : List Char, (∀ z ∈ w, isSpace z = false) →
      words (normal nfc w) = ((words w).map (normal nfc)).filter (· ≠ []) := by
    intro w hw
    rw [Text.words_part (h.word w hw), Text.words_part hw]
    rcases eq_or_ne w [] with rfl | hne
    · rw [normal_nil h]
      rfl
    · rw [if_neg hne, List.map_singleton]
      split
      · rename_i hnil
        rw [hnil]
        rfl
      · rename_i hfilled
        simp [hfilled]
  induction cs using cut_induction isSpace with
  | last w hw => exact hpart w hw
  | step w x rest hw hx ih =>
    have hx' := hspaces x (List.mem_append_right _ List.mem_cons_self) hx
    rw [h.boundary w x rest hx, hx', List.append_assoc, List.singleton_append, Text.words_append hx,
      Text.words_append hx, List.map_append, List.filter_append, hpart w hw,
      ih fun c hc => hspaces c (List.mem_append_right _ (List.mem_cons_of_mem _ hc))]

/-- Normalizing adds no control character. -/
theorem normal_kept (cs : List Char) (hspaces : ∀ c ∈ cs, isSpace c = true → normal nfc [c] = [c])
    (hkept : ∀ c ∈ cs, keptChar c = true) : ∀ c ∈ normal nfc cs, keptChar c = true := by
  have hpart : ∀ w : List Char, (∀ z ∈ w, isSpace z = false) → (∀ z ∈ w, keptChar z = true) →
      ∀ c ∈ normal nfc w, keptChar c = true := by
    intro w hw hk c hc
    have hprintable := h.printable w (fun z hz => ?_) c hc
    · simp only [keptChar, Bool.or_eq_true, decide_eq_true_eq]
      exact .inr hprintable
    · have hz' := hk z hz
      simp only [keptChar, Bool.or_eq_true, beq_iff_eq, decide_eq_true_eq] at hz'
      rcases hz' with (rfl | rfl) | hle
      · exact absurd (hw _ hz) (by decide)
      · exact absurd (hw _ hz) (by decide)
      · exact hle
  induction cs using cut_induction isSpace with
  | last w hw => exact hpart w hw hkept
  | step w x rest hw hx ih =>
    have hx' := hspaces x (List.mem_append_right _ List.mem_cons_self) hx
    intro c hc
    rw [h.boundary w x rest hx, hx', List.append_assoc, List.singleton_append] at hc
    rcases List.mem_append.mp hc with hc | hc
    · exact hpart w hw (fun z hz => hkept z (List.mem_append_left _ hz)) c hc
    · rcases List.mem_cons.mp hc with rfl | hc
      · exact hkept _ (List.mem_append_right _ List.mem_cons_self)
      · exact ih (fun z hz => hspaces z (List.mem_append_right _ (List.mem_cons_of_mem _ hz)))
          (fun z hz => hkept z (List.mem_append_right _ (List.mem_cons_of_mem _ hz))) c hc

end

/-! ## Cleaned texts -/

theorem replaceCrLf_plain {cs : List Char} (h : '\r' ∉ cs) : replaceCrLf cs = cs := by
  induction cs using Memory.replaceCrLf.induct with
  | case1 cs ih => exact absurd List.mem_cons_self h
  | case2 c cs hno ih =>
    rw [replaceCrLf, ih fun hmem => h (List.mem_cons_of_mem _ hmem)]
    exact hno
  | case3 => rfl

theorem replaceCrLf_mem {cs : List Char} {c : Char} (h : c ∈ replaceCrLf cs) : c ∈ cs := by
  induction cs using Memory.replaceCrLf.induct with
  | case1 cs ih =>
    rw [replaceCrLf] at h
    rcases List.mem_cons.mp h with rfl | h
    · exact List.mem_cons_of_mem _ List.mem_cons_self
    · exact List.mem_cons_of_mem _ (List.mem_cons_of_mem _ (ih h))
  | case2 d cs hno ih =>
    rw [replaceCrLf] at h
    · rcases List.mem_cons.mp h with rfl | h
      · exact List.mem_cons_self
      · exact List.mem_cons_of_mem _ (ih h)
    · exact hno
  | case3 => exact h

theorem cleaned_mem {nfc : String → String} {value : String} {c : Char} (h : c ∈ cleaned nfc value) :
    keptChar c = true ∧ c ≠ '\r' ∧ (c = '\n' ∨ c ∈ (nfc value).toList) := by
  obtain ⟨hc, hkept⟩ := List.mem_filter.mp h
  obtain ⟨d, hd, rfl⟩ := List.mem_map.mp hc
  refine ⟨hkept, ?_, ?_⟩
  · split
    · decide
    · assumption
  · split
    · exact .inl rfl
    · exact .inr (replaceCrLf_mem hd)

/-- A text that holds only characters that are kept is only folded. -/
theorem cleaned_plain {nfc : String → String} {cs : List Char}
    (hkept : ∀ c ∈ normal nfc cs, keptChar c = true) : cleaned nfc (String.ofList cs) = normal nfc cs := by
  have hreturn : '\r' ∉ normal nfc cs := fun hmem => absurd (hkept _ hmem) (by decide)
  unfold cleaned
  show ((replaceCrLf (normal nfc cs)).map _).filter keptChar = _
  have hmap : (normal nfc cs).map (fun c => if c = '\r' then '\n' else c) = normal nfc cs := by
    refine (List.map_congr_left fun c hc => ?_).trans (List.map_id _)
    refine if_neg fun heq => hreturn ?_
    rwa [← heq]
  rw [replaceCrLf_plain hreturn, hmap]
  exact List.filter_eq_self.mpr hkept

example : cleaned id "a\r\nb" = ['a', '\n', 'b'] := by decide +kernel

/-! ## The second pass -/

/-- What is left of the normalized text, when newlines are folded and control characters removed, is still
    normalized. -/
def Settled (nfc : String → String) (value : String) : Prop :=
  normal nfc (cleaned nfc value) = cleaned nfc value

section

variable {nfc : String → String} (h : Normalizes nfc) (value : String)

include h

/-- The whitespace of a cleaned text is normal. -/
theorem cleaned_spaces : ∀ c ∈ cleaned nfc value, isSpace c = true → normal nfc [c] = [c] := by
  intro c hc hspace
  rcases (cleaned_mem hc).2.2 with rfl | hvalue
  · exact h.feed
  · have hnormal : normal nfc (nfc value).toList = (nfc value).toList := by
      unfold normal
      rw [String.ofList_toList, h.idempotent]
    exact ((normal_iff h _).mp hnormal).2 c hvalue hspace

/-- The canonical text is normal when the cleaned text is. -/
theorem canonical_normal_iff :
    normal nfc (Memory.canonicalChars nfc value) = Memory.canonicalChars nfc value ↔ Settled nfc value := by
  have hspaces : ∀ c ∈ Memory.canonicalChars nfc value, isSpace c = true → normal nfc [c] = [c] := by
    intro c hc hspace
    rcases Text.mem_foldLines hc with rfl | hcleaned
    · exact h.feed
    · exact cleaned_spaces h value c hcleaned hspace
  have hwords : words (Memory.canonicalChars nfc value) = words (cleaned nfc value) := Text.words_foldLines _
  unfold Settled
  rw [normal_iff h, normal_iff h, hwords]
  exact and_congr_right fun _ => ⟨fun _ => cleaned_spaces h value, fun _ => hspaces⟩

/-- **The second pass changes nothing exactly when the cleaned text is still normalized.** -/
theorem canonicalChars_again_iff :
    Memory.canonicalChars nfc (String.ofList (Memory.canonicalChars nfc value)) = Memory.canonicalChars nfc value ↔
      Settled nfc value := by
  have hkept : ∀ c ∈ Memory.canonicalChars nfc value, keptChar c = true := by
    intro c hc
    rcases Text.mem_foldLines hc with rfl | hcleaned
    · decide
    · exact (cleaned_mem hcleaned).1
  have hspaces : ∀ c ∈ Memory.canonicalChars nfc value, isSpace c = true → normal nfc [c] = [c] := by
    intro c hc hspace
    rcases Text.mem_foldLines hc with rfl | hcleaned
    · exact h.feed
    · exact cleaned_spaces h value c hcleaned hspace
  have hagain : Memory.canonicalChars nfc (String.ofList (Memory.canonicalChars nfc value)) =
      foldLines (normal nfc (Memory.canonicalChars nfc value)) := by
    rw [canonicalChars_eq, cleaned_plain (normal_kept h _ hspaces hkept)]
  rw [hagain, ← canonical_normal_iff h value]
  constructor
  · intro hsame
    -- the words are the same, so none of them was changed
    have hwords := congrArg words hsame
    rw [Text.words_foldLines, words_normal h _ hspaces] at hwords
    have hlength := congrArg List.length hwords
    have hall := List.filter_eq_self.mpr (List.length_filter_eq_length_iff.mp
      (hlength.trans (List.length_map (normal nfc)).symm))
    rw [hall] at hwords
    refine (normal_iff h _).mpr ⟨fun w hw => ?_, hspaces⟩
    exact List.map_inj_left.mp (hwords.trans (List.map_id _).symm) w hw
  · intro hnormal
    rw [hnormal, canonicalChars_eq, Text.foldLines_foldLines]

/-- **The two canonical texts are settled by the same condition.** -/
theorem canonical_settles :
    (∀ text, Memory.canonicalText nfc value = .ok text →
      (Memory.canonicalText nfc text = .ok text ↔ Settled nfc value)) ∧
    ∀ (libs : Evidence.Libraries) (policy : Evidence.IngestionPolicy) text,
      Evidence.canonicalText (reading nfc libs) policy value = .ok text →
      (Evidence.canonicalText (reading nfc libs) policy text = .ok text ↔ Settled nfc value) := by
  have hagain := canonicalChars_again_iff h value
  constructor
  · intro text htext
    unfold Memory.canonicalText at htext
    dsimp only at htext
    split at htext
    · cases htext
    · rename_i hbound
      rw [← Except.ok.inj htext, ← hagain]
      unfold Memory.canonicalText
      dsimp only
      constructor
      · intro hsame
        split at hsame
        · cases hsame
        · exact String.ofList_inj.mp (Except.ok.inj hsame)
      · intro hsame
        rw [hsame, if_neg hbound]
  · intro libs policy text htext
    rw [reading_canonical] at htext
    split at htext
    · cases htext
    · rename_i hbound
      rw [← Except.ok.inj htext, ← hagain]
      rw [reading_canonical]
      constructor
      · intro hsame
        split at hsame
        · cases hsame
        · exact String.ofList_inj.mp (Except.ok.inj hsame)
      · intro hsame
        rw [hsame, if_neg hbound]

end

/-! ## An accent -/

/-- Normalization of the letter e with an acute accent. -/
def composeChars : List Char → List Char
  | 'e' :: '\u0301' :: cs => 'é' :: composeChars cs
  | c :: cs => c :: composeChars cs
  | [] => []

def compose (value : String) : String := String.ofList (composeChars value.toList)

theorem normal_compose (cs : List Char) : normal compose cs = composeChars cs := by
  unfold normal compose
  rw [String.toList_ofList, String.toList_ofList]

theorem composeChars_cons {c : Char} {cs : List Char} (h : c = 'e' → ∀ rest, cs ≠ '\u0301' :: rest) :
    composeChars (c :: cs) = c :: composeChars cs := by
  rw [composeChars]
  rintro rest rfl rfl
  exact h rfl rest rfl

theorem composeChars_head {cs rest : List Char} (h : composeChars cs = '\u0301' :: rest) :
    ∃ rest', cs = '\u0301' :: rest' := by
  induction cs using composeChars.induct with
  | case1 cs ih =>
    rw [composeChars] at h
    exact absurd (List.cons.inj h).1 (by decide)
  | case2 c cs hno ih =>
    rw [composeChars_cons fun hc rest' hcs => hno rest' hc hcs] at h
    exact ⟨cs, by rw [(List.cons.inj h).1]⟩
  | case3 => cases h

example : composeChars ['e', '\u0301', 'x'] = ['é', 'x'] := by decide +kernel

theorem composeChars_idempotent (cs : List Char) : composeChars (composeChars cs) = composeChars cs := by
  induction cs using composeChars.induct with
  | case1 cs ih => rw [composeChars, composeChars_cons fun h => absurd h (by decide), ih]
  | case2 c cs hno ih =>
    rw [composeChars_cons fun hc rest hcs => hno rest hc hcs, composeChars_cons, ih]
    intro hc rest hrest
    obtain ⟨rest', hcs⟩ := composeChars_head hrest
    exact hno rest' hc hcs
  | case3 => rfl

theorem composeChars_append {c : Char} (hc : isSpace c = true) (a b : List Char) :
    composeChars (a ++ c :: b) = composeChars a ++ c :: composeChars b := by
  induction a using composeChars.induct with
  | case1 a ih => rw [List.cons_append, List.cons_append, composeChars, composeChars, ih, List.cons_append]
  | case2 d a hno ih =>
    rw [List.cons_append, composeChars_cons fun hd rest ha => hno rest hd ha, composeChars_cons, ih,
      List.cons_append]
    intro hd rest hrest
    cases a with
    | nil =>
      rw [(List.cons.inj hrest).1] at hc
      exact absurd hc (by decide)
    | cons x a =>
      obtain ⟨rfl, -⟩ := List.cons.inj hrest
      exact hno a hd rfl
  | case3 =>
    refine composeChars_cons fun hd => ?_
    rw [hd] at hc
    exact absurd hc (by decide)

theorem composeChars_mem {c : Char} {cs : List Char} (h : c ∈ composeChars cs) : c = 'é' ∨ c ∈ cs := by
  induction cs using composeChars.induct with
  | case1 cs ih =>
    rw [composeChars] at h
    rcases List.mem_cons.mp h with rfl | h
    · exact .inl rfl
    · exact (ih h).imp_right fun hc => List.mem_cons_of_mem _ (List.mem_cons_of_mem _ hc)
  | case2 d cs hno ih =>
    rw [composeChars_cons fun hd rest hcs => hno rest hd hcs] at h
    rcases List.mem_cons.mp h with rfl | h
    · exact .inr List.mem_cons_self
    · exact (ih h).imp_right fun hc => List.mem_cons_of_mem _ hc
  | case3 => cases h

theorem compose_normalizes : Normalizes compose where
  idempotent := fun s => by
    unfold compose
    rw [String.toList_ofList, composeChars_idempotent]
  feed := by decide
  boundary := fun a c b hc => by
    simp only [normal_compose]
    rw [composeChars_append hc, show composeChars [c] = [c] from composeChars_append hc [] [], List.append_assoc]
    rfl
  space := fun c hc => ⟨c, hc, (normal_compose [c]).trans (composeChars_append hc [] [])⟩
  word := fun w hw c hc => by
    rw [normal_compose] at hc
    rcases composeChars_mem hc with rfl | hc
    · decide
    · exact hw c hc
  printable := fun w hw c hc => by
    rw [normal_compose] at hc
    rcases composeChars_mem hc with rfl | hc
    · decide
    · exact hw c hc

/-- A text without control characters is canonical after one pass. -/
theorem canonical_settles_sample : ∃ text, Memory.canonicalText compose "cafe\u0301 \r\n" = .ok text ∧
    Memory.canonicalText compose text = .ok text := by
  have hsettled : Settled compose "cafe\u0301 \r\n" := by
    unfold Settled
    decide
  have hok : ∃ text, Memory.canonicalText compose "cafe\u0301 \r\n" = .ok text := by
    unfold Memory.canonicalText
    exact ⟨_, if_neg (by decide)⟩
  obtain ⟨text, htext⟩ := hok
  exact ⟨text, htext, ((canonical_settles compose_normalizes _).1 text htext).mpr hsettled⟩

/-- A control character between a letter and its accent: the second pass composes them. -/
theorem accent_composed :
    ¬∀ nfc, Normalizes nfc → ∀ value text, Memory.canonicalText nfc value = .ok text →
      Memory.canonicalText nfc text = .ok text := by
  intro h
  have hfirst : Memory.canonicalText compose "e\x01\u0301" = .ok "e\u0301" := by decide
  have hsecond : Memory.canonicalText compose "e\u0301" = .ok "é" := by decide
  have hsame := h compose compose_normalizes _ _ hfirst
  rw [hsecond] at hsame
  exact absurd (Except.ok.inj hsame) (by decide)

end Canonical

end Aegis
