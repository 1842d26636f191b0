/-
  THE CONTEXT THAT A MODEL IS SHOWN: hits of a retrieval, framed as untrusted data, within a budget.

  `build` looks at the hits from both ends inwards and takes one when its canonical text is new, its tier
  has tokens left and its framed text has bytes left; each is a greedy admission (`chosenHits`).  Framing
  escapes the angle brackets of the text, so the two tags at its ends are the only ones
  (`frame_opening`, `frame_closing`).

  Everything is bounded on the RAW text, and a snippet is bounded on the FRAMED text; escaping makes it up
  to four times as long.
-/
import Mathlib
import Aegis.Memory.Budgets

namespace Aegis

namespace Memory

variable {V S K : Type}

/-! ## Records -/

structure ContextBudget where
  totalTokens : Nat
  reservedSystemTokens : Nat
  reservedSafetyTokens : Nat
  workingTokens : Nat
  episodicTokens : Nat
  semanticTokens : Nat
  maximumBytes : Nat
  minimumCitations : Nat
  total_ok : 256 ≤ totalTokens ∧ totalTokens ≤ 1000000
  reserved_ok : (64 ≤ reservedSystemTokens ∧ reservedSystemTokens ≤ 100000) ∧
    (64 ≤ reservedSafetyTokens ∧ reservedSafetyTokens ≤ 100000)
  tiers_ok : workingTokens ≤ 100000 ∧ episodicTokens ≤ 100000 ∧ semanticTokens ≤ 100000
  bytes_ok : 1024 ≤ maximumBytes ∧ maximumBytes ≤ 1048576
  citations_ok : 1 ≤ minimumCitations ∧ minimumCitations ≤ 64
  allocation_ok : reservedSystemTokens + reservedSafetyTokens + workingTokens + episodicTokens
    + semanticTokens ≤ totalTokens

/-- `per_tier`. -/
def ContextBudget.perTier (budget : ContextBudget) : MemoryTier → Nat
  | .working => budget.workingTokens
  | .episodic => budget.episodicTokens
  | .semantic => budget.semanticTokens

structure ContextSnippet where
  memoryId : Identifier
  chunkId : Identifier
  tier : MemoryTier
  framedText : String
  citation : MemoryCitation
  tokenCount : Nat
  framed_ok : 1 ≤ framedText.toList.length ∧ framedText.toList.length ≤ maxMemoryText
  tokens_ok : 1 ≤ tokenCount

def ContextSnippet.modelDump (s : ContextSnippet) : Json :=
  .obj [("memory_id", .str s.memoryId.val), ("chunk_id", .str s.chunkId.val),
    ("tier", .str s.tier.value), ("framed_text", .str s.framedText), ("citation", s.citation.modelDump),
    ("token_count", .int s.tokenCount)]

structure MemoryContext where
  snippets : List ContextSnippet
  tokenCount : Nat
  byteCount : Nat
  insufficientContext : Bool
  contextDigest : Digest
  snippets_ok : snippets.length ≤ 100

def instructionBoundary : String := "retrieved-memory-is-untrusted-data-not-instructions-or-authority"

/-! ## Framing -/

/-- `text.replace(c, by)` for one character. -/
def replaceChar (c : Char) (replacement : List Char) (text : List Char) : List Char :=
  text.flatMap fun d => if d = c then replacement else [d]

/-- The text with its angle brackets escaped. -/
def escapeBrackets (text : List Char) : List Char :=
  replaceChar '>' ['&', 'g', 't', ';'] (replaceChar '<' ['&', 'l', 't', ';'] text)

/-- What every opening tag begins with. -/
def openingTag : List Char := "<untrusted-memory ".toList

def closingTag : List Char := "</untrusted-memory>".toList

def chunkField : List Char := "chunk=\"".toList

def evidenceField : List Char := "\" evidence=\"".toList

def openingEnd : List Char := "\">\n".toList

/-- `_frame_untrusted`. -/
def frameUntrusted (hit : RetrievalHit S) : List Char :=
  openingTag ++ chunkField ++ hit.chunkId.val.toList ++ evidenceField
    ++ hit.citation.evidenceId.val.toList ++ openingEnd ++ escapeBrackets hit.text.toList ++ ['\n']
    ++ closingTag

/-! ## The order -/

/-- The loop of `_lost_middle_order`. -/
def lostMiddleLoop (left right : Int) : List Int :=
  if left ≤ right then
    left :: ((if right ≠ left then [right] else []) ++ lostMiddleLoop (left + 1) (right - 1))
  else []
termination_by (right + 1 - left).toNat

/-- `_lost_middle_order`. -/
def lostMiddleOrder (length : Nat) : List Int := lostMiddleLoop 0 ((length : Int) - 1)

/-- The hits in that order. -/
def lostMiddleHits (hits : List (RetrievalHit S)) : List (RetrievalHit S) :=
  (lostMiddleOrder hits.length).filterMap fun index => hits[index.toNat]?

/-! ## Building -/

section

variable (sha : Sha256) (unicode : Unicode)

/-- What has been chosen: the hits, the digests seen, and the tokens used of each tier. -/
structure Chosen (S : Type) where
  hits : List (RetrievalHit S)
  seen : List Digest
  used : MemoryTier → Nat

def Chosen.start (S : Type) : Chosen S where
  hits := []
  seen := []
  used := fun _ => 0

/-- The bytes of framed hits. -/
def framedBytes (hits : List (RetrievalHit S)) : Nat :=
  (hits.map fun hit => Text.byteLength (frameUntrusted hit)).sum

/-- One turn of the loop of `build`. -/
def choose (budget : ContextBudget) (c : Chosen S) (hit : RetrievalHit S) : Except Error (Chosen S) := do
  let canonical ← canonicalText unicode.nfc hit.text
  let digest := sha.hexdigest canonical
  let tokens := tokenEstimate hit.text.toList
  if digest ∈ c.seen ∨ budget.perTier hit.tier < c.used hit.tier + tokens then pure c
  else if budget.maximumBytes < framedBytes c.hits + Text.byteLength (frameUntrusted hit) then pure c
  else pure { hits := c.hits ++ [hit], seen := c.seen ++ [digest],
              used := Function.update c.used hit.tier (c.used hit.tier + tokens) }

/-- `ContextSnippet(...)`. -/
def snippetOf (hit : RetrievalHit S) : Except Error ContextSnippet :=
  let framed := frameUntrusted hit
  if h : framed.length ≤ maxMemoryText then
    .ok { memoryId := hit.memoryId, chunkId := hit.chunkId, tier := hit.tier,
          framedText := String.ofList framed, citation := hit.citation,
          tokenCount := tokenEstimate hit.text.toList,
          framed_ok := by
            rw [String.toList_ofList]
            refine ⟨?_, h⟩
            simp only [framed, frameUntrusted, List.length_append, List.length_singleton]
            omega
          tokens_ok := Nat.le_max_left _ _ }
  else .error (validationError "ContextSnippet.framed_text")

/-- `LangGraphMemoryContextBuilder.build`. -/
def build (result : RetrievalResult S) (budget : ContextBudget) : Except Error MemoryContext := do
  let chosen ← (lostMiddleHits result.hits).foldlM (choose sha unicode budget) (Chosen.start S)
  let snippets ← chosen.hits.mapM snippetOf
  let insufficient := decide ((snippets.map fun s => s.citation.evidenceId).dedup.length
    < budget.minimumCitations)
  let tokenCount := (snippets.map fun s => s.tokenCount).sum
  let byteCount := (snippets.map fun s => Text.byteLength s.framedText.toList).sum
  if h : snippets.length ≤ 100 then
    .ok { snippets, tokenCount, byteCount, insufficientContext := insufficient,
          contextDigest := canonicalDigest sha (.obj [
            ("snippets", .arr (snippets.map ContextSnippet.modelDump)), ("token_count", .int tokenCount),
            ("byte_count", .int byteCount), ("insufficient_context", .bool insufficient),
            ("instruction_boundary", .str instructionBoundary)]),
          snippets_ok := h }
  else .error (validationError "MemoryContext.snippets")

end

/-! ## What framing makes -/

/-- No angle bracket. -/
def Bracketless (text : List Char) : Prop := ∀ c ∈ text, c ≠ '<' ∧ c ≠ '>'

theorem escapeBrackets_bracketless (text : List Char) : Bracketless (escapeBrackets text) := by
  intro c hc
  obtain ⟨d, hd, hcd⟩ := List.mem_flatMap.mp hc
  obtain ⟨e, -, hde⟩ := List.mem_flatMap.mp hd
  split at hcd
  · -- a closing bracket was replaced
    simp only [List.mem_cons, List.not_mem_nil, or_false] at hcd
    rcases hcd with rfl | rfl | rfl | rfl <;> decide
  · rename_i hgt
    rw [List.mem_singleton] at hcd
    subst hcd
    split at hde
    · simp only [List.mem_cons, List.not_mem_nil, or_false] at hde
      rcases hde with rfl | rfl | rfl | rfl <;> decide
    · rename_i hlt
      rw [List.mem_singleton] at hde
      exact ⟨hde ▸ hlt, hgt⟩

theorem Identifier.bracketless (i : Identifier) : Bracketless i.val.toList := by
  have h := i.property
  simp only [isIdentifier, isReference, Bool.and_eq_true] at h
  intro c hc
  have hchar := List.all_eq_true.mp h.2 c hc
  constructor
  · rintro rfl
    exact absurd hchar (by decide)
  · rintro rfl
    exact absurd hchar (by decide)

/-- The tags without their first brackets. -/
def openingRest : List Char := "untrusted-memory ".toList

def closingRest : List Char := "/untrusted-memory>".toList

theorem openingTag_eq : openingTag = '<' :: openingRest := by decide +kernel

theorem closingTag_eq : closingTag = '<' :: closingRest := by decide +kernel

theorem closingRest_open : '<' ∉ closingRest := by decide +kernel

/-- What stands between the first bracket of a framed text and the one of its closing tag. -/
def framedMiddle (hit : RetrievalHit S) : List Char :=
  openingRest ++ (chunkField ++ (hit.chunkId.val.toList ++ (evidenceField
    ++ (hit.citation.evidenceId.val.toList ++ (openingEnd ++ (escapeBrackets hit.text.toList ++ ['\n']))))))

theorem frame_eq (hit : RetrievalHit S) :
    frameUntrusted hit = '<' :: (framedMiddle hit ++ '<' :: closingRest) := by
  rw [frameUntrusted, openingTag_eq, closingTag_eq, framedMiddle]
  simp only [List.cons_append, List.append_assoc]

/-- The middle has no opening bracket. -/
example : openingTag.length = 18 ∧ closingTag.length = 19 := by decide +kernel

theorem framedMiddle_open (hit : RetrievalHit S) : '<' ∉ framedMiddle hit := by
  have hchunk : '<' ∉ hit.chunkId.val.toList := fun h => (Identifier.bracketless hit.chunkId _ h).1 rfl
  have hevidence : '<' ∉ hit.citation.evidenceId.val.toList :=
    fun h => (Identifier.bracketless hit.citation.evidenceId _ h).1 rfl
  have htext : '<' ∉ escapeBrackets hit.text.toList :=
    fun h => (escapeBrackets_bracketless hit.text.toList _ h).1 rfl
  have hfixed : '<' ∉ openingRest ∧ '<' ∉ chunkField ∧ '<' ∉ evidenceField ∧ '<' ∉ openingEnd := by
    decide +kernel
  simp only [framedMiddle, List.mem_append, not_or]
  exact ⟨hfixed.1, hfixed.2.1, hchunk, hfixed.2.2.1, hevidence, hfixed.2.2.2, htext, by decide⟩

/-- Where an opening bracket can be among two. -/
theorem bracket_places {a b front rest : List Char} (ha : '<' ∉ a) (hb : '<' ∉ b)
    (h : '<' :: (a ++ '<' :: b) = front ++ '<' :: rest) :
    (front = [] ∧ rest = a ++ '<' :: b) ∨ (front = '<' :: a ∧ rest = b) := by
  cases front with
  | nil => exact .inl ⟨rfl, (List.cons.inj h).2.symm⟩
  | cons c front =>
    obtain ⟨rfl, htail⟩ := List.cons.inj h
    rcases List.append_eq_append_iff.mp htail with ⟨m, hfront, hrest⟩ | ⟨m, hfront, hrest⟩
    · cases m with
      | nil =>
        rw [List.append_nil] at hfront
        exact .inr ⟨by rw [hfront], (List.cons.inj hrest).2.symm⟩
      | cons d m =>
        obtain ⟨-, htail⟩ := List.cons.inj hrest
        refine absurd ?_ hb
        rw [htail]
        exact List.mem_append_right m List.mem_cons_self
    · cases m with
      | nil =>
        rw [List.append_nil] at hfront
        exact .inr ⟨by rw [hfront], (List.cons.inj hrest).2⟩
      | cons d m =>
        obtain ⟨rfl, -⟩ := List.cons.inj hrest
        exact absurd (by rw [hfront]; simp) ha

/-- A framed text has one opening tag and one closing tag, at its two ends. -/
structure Framed (framed : List Char) : Prop where
  starts : openingTag <+: framed
  ends : closingTag <:+ framed
  opening : ∀ front rest, framed = front ++ openingTag ++ rest → front = []
  closing : ∀ front rest, framed = front ++ closingTag ++ rest → rest = []

/-- **Whatever its text, a framed hit has its two tags only.** -/
theorem frame_framed (hit : RetrievalHit S) : Framed (frameUntrusted hit) := by
  have hmiddle := framedMiddle_open hit
  rw [frame_eq]
  refine ⟨?_, ?_, fun front rest h => ?_, fun front rest h => ?_⟩
  · rw [openingTag_eq, framedMiddle, List.append_assoc]
    exact (List.cons_prefix_cons.mpr ⟨rfl, List.prefix_append _ _⟩)
  · rw [closingTag_eq, ← List.cons_append]
    exact List.suffix_append _ _
  · rw [openingTag_eq, List.append_assoc, List.cons_append] at h
    rcases bracket_places hmiddle closingRest_open h with ⟨hfront, -⟩ | ⟨-, hrest⟩
    · exact hfront
    · -- the closing tag does not begin as an opening one
      have hhead := congrArg List.head? hrest
      rw [List.head?_append_of_ne_nil _ (by decide +kernel)] at hhead
      exact absurd hhead (by decide +kernel)
  · rw [closingTag_eq, List.append_assoc, List.cons_append] at h
    rcases bracket_places hmiddle closingRest_open h with ⟨-, hrest⟩ | ⟨-, hrest⟩
    · -- the opening tag does not begin as a closing one
      have hhead := congrArg List.head? hrest
      rw [List.head?_append_of_ne_nil _ (by decide +kernel), framedMiddle, List.append_assoc,
        List.head?_append_of_ne_nil _ (by decide +kernel)] at hhead
      exact absurd hhead (by decide +kernel)
    · exact List.append_cancel_left (hrest.trans (List.append_nil _).symm)

/-- A character escaped has at most four times its bytes. -/
theorem escape_bytes (text : List Char) : Text.byteLength (escapeBrackets text) ≤ 4 * Text.byteLength text := by
  induction text with
  | nil => exact le_refl _
  | cons c text ih =>
    have hsplit : escapeBrackets (c :: text) = escapeBrackets [c] ++ escapeBrackets text := by
      simp only [escapeBrackets, replaceChar, List.flatMap_cons, List.flatMap_nil, List.append_nil,
        List.flatMap_append]
    have hone : Text.byteLength (escapeBrackets [c]) ≤ 4 * c.utf8Size := by
      have hpos := c.utf8Size_pos
      simp only [escapeBrackets, replaceChar, List.flatMap_cons, List.flatMap_nil, List.append_nil]
      split
      · subst_vars
        decide
      · rw [List.flatMap_cons, List.flatMap_nil, List.append_nil]
        split
        · subst_vars
          decide
        · rw [Text.byteLength, List.map_singleton, List.sum_singleton]
          omega
    rw [hsplit, Text.byteLength_append, Text.byteLength_cons]
    omega

theorem Identifier.bytes (i : Identifier) : Text.byteLength i.val.toList ≤ 512 := by
  have h := i.property
  simp only [isIdentifier, isReference, Bool.and_eq_true, decide_eq_true_eq] at h
  have hbytes := Text.byteLength_le i.val.toList
  omega

theorem frame_bytes (hit : RetrievalHit S) :
    Text.byteLength (frameUntrusted hit) ≤ 4 * Text.byteLength hit.text.toList + 1084 := by
  have hchunk := Identifier.bytes hit.chunkId
  have hevidence := Identifier.bytes hit.citation.evidenceId
  have htext := escape_bytes hit.text.toList
  have hfixed : Text.byteLength openingTag + Text.byteLength chunkField + Text.byteLength evidenceField
      + Text.byteLength openingEnd + Text.byteLength ['\n'] + Text.byteLength closingTag = 60 := by
    decide +kernel
  simp only [frameUntrusted, Text.byteLength_append]
  omega

/-! ## The order is a permutation -/

theorem lostMiddleLoop_perm : ∀ (n : Nat) (left right : Int), right + 1 - left = n →
    (lostMiddleLoop left right).Perm ((List.range n).map fun i : Nat => left + (i : Int))
  | 0, left, right, h => by
    rw [lostMiddleLoop, if_neg (by omega)]
    exact List.Perm.refl _
  | 1, left, right, h => by
    rw [lostMiddleLoop, if_pos (by omega), if_neg (by omega), lostMiddleLoop, if_neg (by omega)]
    simp
  | n + 2, left, right, h => by
    -- both ends, and the order of what is between them
    have ih := lostMiddleLoop_perm n (left + 1) (right - 1) (by omega)
    rw [lostMiddleLoop, if_pos (by omega), if_pos (by omega)]
    have hright : right = left + ((n + 1 : Nat) : Int) := by omega
    have hrange : (List.range (n + 2)).map (fun i : Nat => left + (i : Int)) =
        left :: ((List.range n).map (fun i : Nat => left + 1 + (i : Int)) ++ [right]) := by
      rw [List.range_succ, List.map_append, List.range_succ_eq_map, List.map_cons, List.map_map,
        List.map_singleton, ← hright, List.cons_append]
      refine congrArg₂ List.cons (by simp) (congrArg (· ++ [right]) ?_)
      refine List.map_congr_left fun i _ => ?_
      show left + ((i + 1 : Nat) : Int) = _
      omega
    rw [hrange]
    refine List.Perm.cons left ?_
    exact (List.Perm.cons right ih).trans (List.perm_append_singleton right _).symm

/-- **`_lost_middle_order` is a permutation of the indices**, for every length. -/
theorem lostMiddleOrder_perm (n : Nat) :
    (lostMiddleOrder n).Perm ((List.range n).map fun i : Nat => (i : Int)) := by
  have h := lostMiddleLoop_perm n 0 ((n : Int) - 1) (by omega)
  simp only [Int.zero_add] at h
  exact h

theorem lostMiddleHits_perm (hits : List (RetrievalHit S)) : (lostMiddleHits hits).Perm hits := by
  refine ((lostMiddleOrder_perm hits.length).filterMap _).trans (List.Perm.of_eq ?_)
  rw [List.filterMap_map]
  show (List.range hits.length).filterMap (fun i => hits[i]?) = hits
  induction hits with
  | nil => rfl
  | cons hit hits ih =>
    rw [List.length_cons, List.range_succ_eq_map, List.filterMap_cons, List.filterMap_map]
    exact congrArg (List.cons hit) ih

/-! ## What is chosen -/

section

variable {sha : Sha256} {unicode : Unicode}

/-- The digest of the canonical text of a hit. -/
def canonicalDigestOf (sha : Sha256) (unicode : Unicode) (hit : RetrievalHit S) : Digest :=
  sha.hexdigest (String.ofList (canonicalChars unicode.nfc hit.text))

/-- The text of a hit has a canonical form. -/
def HasCanonical (unicode : Unicode) (hit : RetrievalHit S) : Prop :=
  ∃ canonical, canonicalText unicode.nfc hit.text = .ok canonical

/-- The tokens of the hits of a tier. -/
def tierTokens (hits : List (RetrievalHit S)) (tier : MemoryTier) : Nat :=
  ((hits.filter fun hit => decide (hit.tier = tier)).map fun hit => tokenEstimate hit.text.toList).sum

/-- The hit fits beside the ones chosen: its text is new, and its tier and the bytes allow it. -/
def fitsBudget (sha : Sha256) (unicode : Unicode) (budget : ContextBudget) (kept : List (RetrievalHit S))
    (hit : RetrievalHit S) : Bool :=
  decide (canonicalDigestOf sha unicode hit ∉ kept.map (canonicalDigestOf sha unicode)
    ∧ tierTokens kept hit.tier + tokenEstimate hit.text.toList ≤ budget.perTier hit.tier
    ∧ framedBytes kept + Text.byteLength (frameUntrusted hit) ≤ budget.maximumBytes)

/-- The hits that a budget takes, from both ends inwards. -/
def chosenHits (sha : Sha256) (unicode : Unicode) (budget : ContextBudget)
    (hits : List (RetrievalHit S)) : List (RetrievalHit S) :=
  Selection.pick (fitsBudget sha unicode budget) [] (lostMiddleHits hits)

/-- The loop has chosen these hits. -/
structure Chose (sha : Sha256) (unicode : Unicode) (kept : List (RetrievalHit S)) (c : Chosen S) :
    Prop where
  hits : c.hits = kept
  seen : c.seen = kept.map (canonicalDigestOf sha unicode)
  used : ∀ tier, c.used tier = tierTokens kept tier

theorem chose_start : Chose sha unicode [] (Chosen.start S) := ⟨rfl, rfl, fun _ => rfl⟩

theorem tierTokens_append (kept : List (RetrievalHit S)) (hit : RetrievalHit S) (tier : MemoryTier) :
    tierTokens (kept ++ [hit]) tier =
      if hit.tier = tier then tierTokens kept tier + tokenEstimate hit.text.toList
      else tierTokens kept tier := by
  unfold tierTokens
  rw [filter_append_single]
  by_cases h : hit.tier = tier
  · rw [if_pos (decide_eq_true h), if_pos h, List.map_append, List.sum_append, List.map_singleton,
      List.sum_singleton]
  · rw [if_neg (by simpa using h), if_neg h]

theorem canonical_of_ok {text canonical : String} (h : canonicalText unicode.nfc text = .ok canonical) :
    canonical = String.ofList (canonicalChars unicode.nfc text) := by
  rw [← (canonicalText_bound h).1, String.ofList_toList]

/-- A turn on a text with a canonical form. -/
theorem choose_eq {budget : ContextBudget} {c : Chosen S} {hit : RetrievalHit S} {canonical : String}
    (h : canonicalText unicode.nfc hit.text = .ok canonical) :
    choose sha unicode budget c hit =
      if sha.hexdigest canonical ∈ c.seen
          ∨ budget.perTier hit.tier < c.used hit.tier + tokenEstimate hit.text.toList then pure c
      else if budget.maximumBytes < framedBytes c.hits + Text.byteLength (frameUntrusted hit) then pure c
      else pure { hits := c.hits ++ [hit], seen := c.seen ++ [sha.hexdigest canonical],
                  used := Function.update c.used hit.tier
                    (c.used hit.tier + tokenEstimate hit.text.toList) } := by
  unfold choose
  rw [h]
  rfl

/-- One turn of the loop is one admission. -/
theorem choose_ok {budget : ContextBudget} {kept : List (RetrievalHit S)} {c : Chosen S}
    (h : Chose sha unicode kept c) {hit : RetrievalHit S} (hcanonical : HasCanonical unicode hit) :
    ∃ c', choose sha unicode budget c hit = .ok c' ∧
      Chose sha unicode (if fitsBudget sha unicode budget kept hit = true then kept ++ [hit] else kept) c' := by
  obtain ⟨canonical, hcanonical⟩ := hcanonical
  have hdigest : sha.hexdigest canonical = canonicalDigestOf sha unicode hit :=
    congrArg sha.hexdigest (canonical_of_ok hcanonical)
  rw [choose_eq hcanonical, hdigest, h.seen, h.used, h.hits]
  split
  · rename_i hskip
    refine ⟨c, rfl, ?_⟩
    rw [if_neg]
    · exact h
    · intro hfits
      obtain ⟨hnew, htokens, -⟩ := of_decide_eq_true hfits
      rcases hskip with hseen | hover
      · exact hnew hseen
      · omega
  · rename_i hkeep
    obtain ⟨hnew, htokens⟩ := not_or.mp hkeep
    split
    · refine ⟨c, rfl, ?_⟩
      rw [if_neg]
      · exact h
      · intro hfits
        obtain ⟨-, -, hbytes⟩ := of_decide_eq_true hfits
        omega
    · have hfits : fitsBudget sha unicode budget kept hit = true :=
        decide_eq_true ⟨hnew, by omega, by omega⟩
      refine ⟨_, rfl, ?_⟩
      rw [if_pos hfits]
      refine ⟨rfl, ?_, fun tier => ?_⟩
      · rw [List.map_append, List.map_singleton]
      · rw [tierTokens_append]
        rcases eq_or_ne hit.tier tier with rfl | hne
        · rw [if_pos rfl]
          exact Function.update_self _ _ _
        · rw [if_neg hne]
          exact (Function.update_of_ne hne.symm _ _).trans (h.used tier)

/-- **The loop admits the hits that fit**, when every text has a canonical form. -/
theorem foldlM_choose {budget : ContextBudget} {hits : List (RetrievalHit S)}
    (hcanonical : ∀ hit ∈ hits, HasCanonical unicode hit) {kept : List (RetrievalHit S)} {c : Chosen S}
    (h : Chose sha unicode kept c) :
    ∃ c', hits.foldlM (choose sha unicode budget) c = .ok c' ∧
      Chose sha unicode (Selection.pick (fitsBudget sha unicode budget) kept hits) c' := by
  induction hits generalizing kept c with
  | nil => exact ⟨c, rfl, h⟩
  | cons hit hits ih =>
    obtain ⟨c₁, hc₁, hchose₁⟩ := choose_ok h (hcanonical hit List.mem_cons_self)
    obtain ⟨c', hc', hchose'⟩ := ih (fun x hx => hcanonical x (List.mem_cons_of_mem _ hx)) hchose₁
    refine ⟨c', ?_, hchose'⟩
    rw [List.foldlM_cons]
    exact except_bind_ok.mpr ⟨c₁, hc₁, hc'⟩

/-- A loop that ends has found a canonical form of every text. -/
theorem canonical_of_foldlM {budget : ContextBudget} {hits : List (RetrievalHit S)} {c c' : Chosen S}
    (h : hits.foldlM (choose sha unicode budget) c = .ok c') : ∀ hit ∈ hits, HasCanonical unicode hit := by
  induction hits generalizing c with
  | nil => exact fun _ hx => (by cases hx)
  | cons hit hits ih =>
    rw [List.foldlM_cons] at h
    obtain ⟨c₁, hc₁, hrest⟩ := except_bind_ok.mp h
    obtain ⟨canonical, hcanonical, -⟩ := except_bind_ok.mp hc₁
    intro x hx
    rcases List.mem_cons.mp hx with rfl | hx
    · exact ⟨canonical, hcanonical⟩
    · exact ih hrest x hx

/-! ## Snippets -/

/-- The snippet of a hit. -/
def SnippetOf (hit : RetrievalHit S) (s : ContextSnippet) : Prop :=
  s.memoryId = hit.memoryId ∧ s.chunkId = hit.chunkId ∧ s.tier = hit.tier ∧
    s.framedText.toList = frameUntrusted hit ∧ s.citation = hit.citation ∧
    s.tokenCount = tokenEstimate hit.text.toList

theorem snippetOf_ok {hit : RetrievalHit S} (h : (frameUntrusted hit).length ≤ maxMemoryText) :
    ∃ s, snippetOf hit = .ok s ∧ SnippetOf hit s := by
  unfold snippetOf
  dsimp only
  rw [dif_pos h]
  exact ⟨_, rfl, rfl, rfl, rfl, String.toList_ofList, rfl, rfl⟩

theorem frame_of_snippetOf {hit : RetrievalHit S} {s : ContextSnippet} (h : snippetOf hit = .ok s) :
    (frameUntrusted hit).length ≤ maxMemoryText ∧ SnippetOf hit s := by
  have hbound : (frameUntrusted hit).length ≤ maxMemoryText := by
    unfold snippetOf at h
    dsimp only at h
    by_contra hlong
    rw [dif_neg hlong] at h
    cases h
  obtain ⟨s', hs', hsnippet⟩ := snippetOf_ok hbound
  rw [hs'] at h
  rw [← Except.ok.inj h]
  exact ⟨hbound, hsnippet⟩

theorem mapM_snippetOf {hits : List (RetrievalHit S)}
    (h : ∀ hit ∈ hits, (frameUntrusted hit).length ≤ maxMemoryText) :
    ∃ snippets, hits.mapM snippetOf = .ok snippets := by
  induction hits with
  | nil => exact ⟨[], rfl⟩
  | cons hit hits ih =>
    obtain ⟨s, hs, -⟩ := snippetOf_ok (h hit List.mem_cons_self)
    obtain ⟨snippets, hsnippets⟩ := ih fun x hx => h x (List.mem_cons_of_mem _ hx)
    refine ⟨s :: snippets, ?_⟩
    rw [List.mapM_cons]
    exact except_bind_ok.mpr ⟨s, hs, except_bind_ok.mpr ⟨snippets, hsnippets, rfl⟩⟩

theorem snippets_of_mapM {hits : List (RetrievalHit S)} {snippets : List ContextSnippet}
    (h : hits.mapM snippetOf = .ok snippets) :
    (∀ hit ∈ hits, (frameUntrusted hit).length ≤ maxMemoryText) ∧
      List.Forall₂ SnippetOf hits snippets := by
  induction hits generalizing snippets with
  | nil =>
    rw [← Except.ok.inj h]
    exact ⟨fun _ hx => (by cases hx), .nil⟩
  | cons hit hits ih =>
    rw [List.mapM_cons] at h
    obtain ⟨s, hs, h⟩ := except_bind_ok.mp h
    obtain ⟨rest, hrest, h⟩ := except_bind_ok.mp h
    obtain ⟨hbound, hsnippet⟩ := frame_of_snippetOf hs
    obtain ⟨hbounds, hsnippets⟩ := ih hrest
    rw [← Except.ok.inj h]
    refine ⟨fun x hx => ?_, .cons hsnippet hsnippets⟩
    rcases List.mem_cons.mp hx with rfl | hx
    · exact hbound
    · exact hbounds x hx

/-! ## What a budget allows -/

/-- **What a context is made of**: the hits that the budget takes. -/
theorem snippets_of_build {result : RetrievalResult S} {budget : ContextBudget} {context : MemoryContext}
    (h : build sha unicode result budget = .ok context) :
    (∀ hit ∈ result.hits, HasCanonical unicode hit) ∧
      (∀ hit ∈ chosenHits sha unicode budget result.hits,
        (frameUntrusted hit).length ≤ maxMemoryText) ∧
      List.Forall₂ SnippetOf (chosenHits sha unicode budget result.hits) context.snippets := by
  obtain ⟨c, hc, h⟩ := except_bind_ok.mp h
  obtain ⟨snippets, hsnippets, h⟩ := except_bind_ok.mp h
  have hcanonical := canonical_of_foldlM hc
  have hstart : Chose sha unicode [] (Chosen.start S) := chose_start
  obtain ⟨c', hc', hchose⟩ := foldlM_choose hcanonical hstart
  rw [hc] at hc'
  obtain rfl := Except.ok.inj hc'
  obtain ⟨hbounds, hforall⟩ := snippets_of_mapM hsnippets
  rw [hchose.hits] at hbounds hforall
  refine ⟨fun hit hhit => ?_, hbounds, ?_⟩
  · exact hcanonical hit ((lostMiddleHits_perm result.hits).mem_iff.mpr hhit)
  · dsimp only at h
    split at h
    · rw [← Except.ok.inj h]
      exact hforall
    · cases h

/-- **When a context is built**: every text has a canonical form, no chosen hit frames to more than a
    snippet holds, and they are at most a hundred. -/
theorem build_ok_iff {result : RetrievalResult S} {budget : ContextBudget} :
    (∃ context, build sha unicode result budget = .ok context) ↔
      (∀ hit ∈ result.hits, HasCanonical unicode hit) ∧
      (∀ hit ∈ chosenHits sha unicode budget result.hits,
        (frameUntrusted hit).length ≤ maxMemoryText) ∧
      (chosenHits sha unicode budget result.hits).length ≤ 100 := by
  constructor
  · rintro ⟨context, h⟩
    obtain ⟨hcanonical, hbounds, hforall⟩ := snippets_of_build h
    refine ⟨hcanonical, hbounds, ?_⟩
    rw [hforall.length_eq]
    exact context.snippets_ok
  · rintro ⟨hcanonical, hbounds, hcount⟩
    have hlost : ∀ hit ∈ lostMiddleHits result.hits, HasCanonical unicode hit := fun hit hhit =>
      hcanonical hit ((lostMiddleHits_perm result.hits).mem_iff.mp hhit)
    have hstart : Chose sha unicode [] (Chosen.start S) := chose_start
    obtain ⟨c, hc, hchose⟩ := foldlM_choose hlost hstart
    obtain ⟨snippets, hsnippets⟩ := mapM_snippetOf hbounds
    have hlen : snippets.length ≤ 100 := by
      rw [← (snippets_of_mapM hsnippets).2.length_eq]
      exact hcount
    have hhits : c.hits.mapM snippetOf = .ok snippets := by
      rw [hchose.hits]
      exact hsnippets
    unfold build
    rw [hc]
    show ∃ context, (do let snippets ← c.hits.mapM snippetOf; _ : Except Error MemoryContext) = _
    rw [hhits]
    exact ⟨_, dif_pos hlen⟩

/-- What is chosen fits the budget. -/
theorem fitsBudget_spec {budget : ContextBudget} {kept : List (RetrievalHit S)} {hit : RetrievalHit S}
    (h : fitsBudget sha unicode budget kept hit = true) :
    canonicalDigestOf sha unicode hit ∉ kept.map (canonicalDigestOf sha unicode)
      ∧ tierTokens kept hit.tier + tokenEstimate hit.text.toList ≤ budget.perTier hit.tier
      ∧ framedBytes kept + Text.byteLength (frameUntrusted hit) ≤ budget.maximumBytes :=
  of_decide_eq_true h

theorem chosenHits_distinct (budget : ContextBudget) (hits : List (RetrievalHit S)) :
    ((chosenHits sha unicode budget hits).map (canonicalDigestOf sha unicode)).Nodup := by
  refine Selection.pick_induct (fun kept => (kept.map (canonicalDigestOf sha unicode)).Nodup)
    (fun kept hit hkept hfits => ?_) _ List.nodup_nil
  rw [List.map_append, List.map_singleton]
  exact List.nodup_append.mpr ⟨hkept, List.nodup_singleton _, fun d hd d' hd' heq =>
    (fitsBudget_spec hfits).1 (List.mem_singleton.mp hd' ▸ heq ▸ hd)⟩

theorem chosenHits_tiers (budget : ContextBudget) (hits : List (RetrievalHit S)) (tier : MemoryTier) :
    tierTokens (chosenHits sha unicode budget hits) tier ≤ budget.perTier tier := by
  refine Selection.pick_induct (fun kept => tierTokens kept tier ≤ budget.perTier tier)
    (fun kept hit hkept hfits => ?_) _ (Nat.zero_le _)
  rw [tierTokens_append]
  split
  · rename_i htier
    rw [← htier]
    exact (fitsBudget_spec hfits).2.1
  · exact hkept

theorem chosenHits_bytes (budget : ContextBudget) (hits : List (RetrievalHit S)) :
    framedBytes (chosenHits sha unicode budget hits) ≤ budget.maximumBytes :=
  Selection.pick_sum_le (fun _ _ hfits => (fitsBudget_spec hfits).2.2) _

/-- A context that a budget allows: hits taken from both ends inwards, no text twice, each tier and the
    bytes within the budget, and every text framed. -/
structure WithinBudget (unicode : Unicode) (budget : ContextBudget) (hits : List (RetrievalHit S))
    (context : MemoryContext) : Prop where
  taken : ∃ chosen : List (RetrievalHit S), chosen.Sublist (lostMiddleHits hits) ∧
    List.Forall₂ SnippetOf chosen context.snippets ∧
    chosen.Pairwise fun a b => canonicalText unicode.nfc a.text ≠ canonicalText unicode.nfc b.text
  tiers : ∀ tier, ((context.snippets.filter fun s => decide (s.tier = tier)).map
    fun s => s.tokenCount).sum ≤ budget.perTier tier
  bytes : (context.snippets.map fun s => Text.byteLength s.framedText.toList).sum ≤ budget.maximumBytes
  framed : ∀ s ∈ context.snippets, Framed s.framedText.toList

/-- The snippets have the framed texts of the hits. -/
theorem framedTexts_eq {chosen : List (RetrievalHit S)} {snippets : List ContextSnippet}
    (h : List.Forall₂ SnippetOf chosen snippets) :
    snippets.map (fun s => s.framedText.toList) = chosen.map frameUntrusted := by
  induction h with
  | nil => rfl
  | cons hsnippet _ ih => rw [List.map_cons, List.map_cons, ih, hsnippet.2.2.2.1]

theorem tierTokens_snippets {chosen : List (RetrievalHit S)} {snippets : List ContextSnippet}
    (h : List.Forall₂ SnippetOf chosen snippets) (tier : MemoryTier) :
    ((snippets.filter fun s => decide (s.tier = tier)).map fun s => s.tokenCount).sum =
      tierTokens chosen tier := by
  unfold tierTokens
  induction h with
  | nil => rfl
  | @cons hit s hits snippets hsnippet _ ih =>
    obtain ⟨-, -, htier, -, -, htokens⟩ := hsnippet
    rw [List.filter_cons, List.filter_cons, htier]
    split
    · rw [List.map_cons, List.sum_cons, List.map_cons, List.sum_cons, ih, htokens]
    · exact ih

/-- **A context that is built is within its budget.** -/
theorem build_within {result : RetrievalResult S} {budget : ContextBudget} {context : MemoryContext}
    (h : build sha unicode result budget = .ok context) :
    WithinBudget unicode budget result.hits context := by
  obtain ⟨hcanonical, -, hsnippets⟩ := snippets_of_build h
  have hsub : (chosenHits sha unicode budget result.hits).Sublist (lostMiddleHits result.hits) :=
    Selection.pick_sublist _ _
  refine ⟨⟨_, hsub, hsnippets, ?_⟩, fun tier => ?_, ?_, fun s hs => ?_⟩
  · refine (List.pairwise_map.mp (chosenHits_distinct budget result.hits)).imp_of_mem
      fun {a b} ha hb hne heq => hne ?_
    obtain ⟨canonical, ha⟩ := hcanonical a ((lostMiddleHits_perm result.hits).mem_iff.mp (hsub.subset ha))
    rw [canonicalDigestOf, canonicalDigestOf, ← canonical_of_ok ha, ← canonical_of_ok (heq ▸ ha)]
  · rw [tierTokens_snippets hsnippets]
    exact chosenHits_tiers budget result.hits tier
  · have hbytes := congrArg (List.map Text.byteLength) (framedTexts_eq hsnippets)
    rw [List.map_map, List.map_map] at hbytes
    exact le_trans (le_of_eq (congrArg List.sum hbytes)) (chosenHits_bytes budget result.hits)
  · have hmem := List.mem_map_of_mem (f := fun s : ContextSnippet => s.framedText.toList) hs
    rw [framedTexts_eq hsnippets] at hmem
    obtain ⟨hit, -, hframed⟩ := List.mem_map.mp hmem
    rw [← hframed]
    exact frame_framed hit

/-! ## A generous budget -/

/-- A budget with room for every result. -/
def generousBudget : ContextBudget where
  totalTokens := 1000000
  reservedSystemTokens := 64
  reservedSafetyTokens := 64
  workingTokens := 100000
  episodicTokens := 100000
  semanticTokens := 100000
  maximumBytes := 1048576
  minimumCitations := 1
  total_ok := by decide
  reserved_ok := by decide
  tiers_ok := by decide
  bytes_ok := by decide
  citations_ok := by decide
  allocation_ok := by decide

theorem generousBudget_perTier (tier : MemoryTier) : generousBudget.perTier tier = 100000 := by
  cases tier <;> rfl

/-- The tokens of hits. -/
def hitTokens (hits : List (RetrievalHit S)) : Nat :=
  (hits.map fun hit => tokenEstimate hit.text.toList).sum

theorem hitTokens_sublist {hits hits' : List (RetrievalHit S)} (h : hits.Sublist hits') :
    hitTokens hits ≤ hitTokens hits' :=
  (h.map _).sum_le_sum fun _ _ => Nat.zero_le _

theorem framedBytes_le (hits : List (RetrievalHit S)) :
    framedBytes hits ≤ 16 * hitTokens hits + 1084 * hits.length := by
  induction hits with
  | nil => exact le_refl _
  | cons hit hits ih =>
    have hframe := frame_bytes hit
    have htokens : Text.byteLength hit.text.toList ≤ 4 * tokenEstimate hit.text.toList := by
      unfold tokenEstimate
      omega
    simp only [framedBytes, hitTokens, List.map_cons, List.sum_cons, List.length_cons] at ih ⊢
    omega

/-- **A generous budget takes every hit** of a result, when no two have one canonical text. -/
theorem generousBudget_takes {hits : List (RetrievalHit S)} (htokens : hitTokens hits ≤ 32768)
    (hcount : hits.length ≤ 100) (hdistinct : (hits.map (canonicalDigestOf sha unicode)).Nodup)
    {hit : RetrievalHit S} (hhit : hit ∈ hits) : hit ∈ chosenHits sha unicode generousBudget hits := by
  have hperm := lostMiddleHits_perm hits
  obtain ⟨before, after, hsplit⟩ := List.append_of_mem (hperm.mem_iff.mpr hhit)
  rw [chosenHits, hsplit]
  refine Selection.mem_pick (decide_eq_true ?_)
  generalize hkept : Selection.pick (fitsBudget sha unicode generousBudget) [] before = kept
  have hsub : (kept ++ [hit]).Sublist (lostMiddleHits hits) := by
    rw [hsplit, List.append_cons before hit after, ← hkept]
    exact ((Selection.pick_sublist _ before).append_right [hit]).trans (List.sublist_append_left _ _)
  have hall : hitTokens (kept ++ [hit]) ≤ 32768 := by
    refine le_trans (hitTokens_sublist hsub) (le_trans (le_of_eq ?_) htokens)
    exact (hperm.map _).sum_eq
  have hlen : (kept ++ [hit]).length ≤ 100 := le_trans hsub.length_le (hperm.length_eq ▸ hcount)
  refine ⟨?_, ?_, ?_⟩
  · have hnodup := (hsub.map (canonicalDigestOf sha unicode)).nodup
      ((hperm.map (canonicalDigestOf sha unicode)).nodup_iff.mpr hdistinct)
    rw [List.map_append, List.map_singleton] at hnodup
    exact fun hmem => (List.nodup_append.mp hnodup).2.2 _ hmem _ (List.mem_singleton_self _) rfl
  · have htier : tierTokens kept hit.tier ≤ hitTokens kept := hitTokens_sublist List.filter_sublist
    have hsum : hitTokens (kept ++ [hit]) = hitTokens kept + tokenEstimate hit.text.toList := by
      rw [hitTokens, List.map_append, List.sum_append, List.map_singleton, List.sum_singleton, hitTokens]
    rw [generousBudget_perTier]
    omega
  · have hsum : framedBytes (kept ++ [hit]) = framedBytes kept + Text.byteLength (frameUntrusted hit) := by
      rw [framedBytes, List.map_append, List.sum_append, List.map_singleton, List.sum_singleton, framedBytes]
    have hbytes := framedBytes_le (kept ++ [hit])
    rw [← hsum]
    refine le_trans hbytes ?_
    show 16 * hitTokens (kept ++ [hit]) + 1084 * (kept ++ [hit]).length ≤ 1048576
    omega

/-! ## Contexts of retrievals -/

variable [DecidableEq S] [LinearOrder K] {attributes : MemoryRecord → RecordAttributes}
  {ranking : Ranking V S K}

variable (sha unicode attributes ranking) in
/-- The call whose scores a result has: for a cached result an earlier one with its cache key, else the
    retrieval itself. -/
def ScoredBy (ops : List (IndexOp V sha)) (query : RetrievalQuery) (vector : List V) (cacheHit : Bool)
    (query' : RetrievalQuery) (vector' : List V) (items : IndexItems) : Prop :=
  if cacheHit = true then
    Asked sha unicode attributes ranking ops query' vector' items ∧ cacheKey sha query = cacheKey sha query'
  else
    query' = query ∧ vector' = vector ∧ items = (indexRun sha unicode attributes ranking ops).items

/-- **Where a result comes from**: some call scored it. -/
theorem retrieve_scored {ops : List (IndexOp V sha)} {query : RetrievalQuery} {vector : List V}
    {result : RetrievalResult S} {s' : HybridIndex S}
    (h : retrieve sha unicode attributes ranking query vector
      (indexRun sha unicode attributes ranking ops) = (.ok result, s')) :
    ∃ query' vector' items computed,
      ScoredBy sha unicode attributes ranking ops query vector result.cacheHit query' vector' items ∧
      Content sha items ∧
      compute sha unicode attributes ranking query' vector' (itemsOf items) = .ok computed ∧
      result.hits = computed.hits := by
  rcases retrieve_run h with ⟨cached, rfl, query', vector', items, hasked, hcontent, hkey, hcomputed⟩ |
    ⟨hcontent, hcomputed⟩
  · exact ⟨query', vector', items, cached, ⟨hasked, hkey⟩, hcontent, hcomputed, rfl⟩
  · refine ⟨query, vector, _, result, ?_, hcontent, hcomputed, rfl⟩
    rw [ScoredBy, compute_ok hcomputed, if_neg (by exact Bool.false_ne_true)]
    exact ⟨rfl, rfl, rfl⟩

/-- **Retrieval keeps the policy, and building keeps the budget.** -/
theorem retrieval_budgets {ops : List (IndexOp V sha)} {query : RetrievalQuery} {vector : List V}
    {result : RetrievalResult S} {s' : HybridIndex S}
    (h : retrieve sha unicode attributes ranking query vector
      (indexRun sha unicode attributes ranking ops) = (.ok result, s'))
    (hfree : result.cacheHit = true → sha.CollisionFree (policyTexts sha fun q => q = query ∨
      ∃ vector items, Asked sha unicode attributes ranking ops q vector items)) :
    (∃ query' vector' items,
      ScoredBy sha unicode attributes ranking ops query vector result.cacheHit query' vector' items ∧
      query'.policy.numbers = query.policy.numbers ∧
      WithinPolicy query.policy (candidatesOf attributes ranking query' vector' (itemsOf items))
        result.hits) ∧
    (∀ n, (lostMiddleOrder n).Perm ((List.range n).map fun i : Nat => (i : Int))) ∧
    ∀ budget context, build sha unicode result budget = .ok context →
      WithinBudget unicode budget result.hits context := by
  refine ⟨?_, lostMiddleOrder_perm, fun _ _ hbuild => build_within hbuild⟩
  obtain ⟨query', vector', items, computed, hscored, hcontent, hcomputed, hhits⟩ := retrieve_scored h
  have hnumbers : query'.policy.numbers = query.policy.numbers := by
    unfold ScoredBy at hscored
    split at hscored
    · rename_i hcached
      obtain ⟨hasked, hkey⟩ := hscored
      exact (policy_of_cacheKey (hfree hcached) (.inl rfl) (.inr ⟨vector', items, hasked⟩) hkey).symm
    · rw [hscored.1]
  refine ⟨query', vector', items, hscored, hnumbers, ?_⟩
  rw [hhits]
  exact (compute_within hcontent hcomputed).of_numbers hnumbers

/-! ## When every context is built -/

omit [DecidableEq S] [LinearOrder K] in
/-- The items of a computed result were scored, so their texts have a canonical form. -/
theorem canonical_of_score {query : RetrievalQuery} {vector : List V} {items : List IndexedChunk}
    {scored : List (Scored S)} (h : items.mapM (score unicode ranking query vector) = .ok scored) :
    ∀ item ∈ items, ∃ canonical, canonicalText unicode.nfc item.chunk.text = .ok canonical := by
  induction items generalizing scored with
  | nil => exact fun _ hx => (by cases hx)
  | cons item items ih =>
    rw [List.mapM_cons] at h
    obtain ⟨p, hp, h⟩ := except_bind_ok.mp h
    obtain ⟨rest, hrest, -⟩ := except_bind_ok.mp h
    obtain ⟨ts, hterms, -⟩ := except_bind_ok.mp hp
    obtain ⟨canonical, hcanonical, -⟩ := except_bind_ok.mp hterms
    intro x hx
    rcases List.mem_cons.mp hx with rfl | hx
    · exact ⟨canonical, hcanonical⟩
    · exact ih hrest x hx

theorem compute_canonical {query : RetrievalQuery} {vector : List V} {items : IndexItems}
    (hcontent : Content sha items) {result : RetrievalResult S}
    (h : compute sha unicode attributes ranking query vector (itemsOf items) = .ok result) :
    ∀ hit ∈ result.hits, HasCanonical unicode hit := by
  intro hit hhit
  obtain ⟨p, hp, hplain⟩ := (compute_within hcontent h).drawn hit hhit
  obtain ⟨item, hitem, rfl⟩ := List.mem_map.mp ((candidates_subperm _).subset hp)
  obtain ⟨_, -, h⟩ := except_bind_ok.mp h
  obtain ⟨scored, hscored, -⟩ := except_bind_ok.mp h
  have htext : hit.text = item.chunk.text := congrArg RetrievalHit.text hplain
  unfold HasCanonical
  rw [htext]
  exact canonical_of_score hscored item hitem

/-- **When contexts are built.**  For a budget: when no hit that it takes frames to more than a snippet
    holds.  For every budget: when no hit does, if no two hits have one canonical text. -/
theorem context_total_iff {ops : List (IndexOp V sha)} {query : RetrievalQuery} {vector : List V}
    {result : RetrievalResult S} {s' : HybridIndex S}
    (h : retrieve sha unicode attributes ranking query vector
      (indexRun sha unicode attributes ranking ops) = (.ok result, s')) :
    (∀ budget, (∃ context, build sha unicode result budget = .ok context) ↔
      ∀ hit ∈ chosenHits sha unicode budget result.hits, (frameUntrusted hit).length ≤ maxMemoryText) ∧
    ((result.hits.map (canonicalDigestOf sha unicode)).Nodup →
      ((∀ budget, ∃ context, build sha unicode result budget = .ok context) ↔
        ∀ hit ∈ result.hits, (frameUntrusted hit).length ≤ maxMemoryText)) := by
  obtain ⟨query', vector', items, computed, -, hcontent, hcomputed, hhits⟩ := retrieve_scored h
  have hcanonical := compute_canonical hcontent hcomputed
  have hwithin := compute_within hcontent hcomputed
  rw [← hhits] at hcanonical hwithin
  have htopK := query'.policy.topK_ok
  have htokens := query'.policy.tokens_ok
  have hcount : result.hits.length ≤ 100 := le_trans hwithin.count htopK.2.1
  have hchosen : ∀ budget, (chosenHits sha unicode budget result.hits).Sublist (lostMiddleHits result.hits) :=
    fun budget => Selection.pick_sublist _ _
  have hperm := lostMiddleHits_perm result.hits
  have hbuild : ∀ budget, (∃ context, build sha unicode result budget = .ok context) ↔
      ∀ hit ∈ chosenHits sha unicode budget result.hits, (frameUntrusted hit).length ≤ maxMemoryText := by
    intro budget
    rw [build_ok_iff]
    refine ⟨fun hok => hok.2.1, fun hframes => ⟨hcanonical, hframes, ?_⟩⟩
    exact le_trans (hchosen budget).length_le (hperm.length_eq ▸ hcount)
  refine ⟨hbuild, fun hdistinct => ⟨fun hall hit hhit => ?_, fun hframes budget => ?_⟩⟩
  · -- a generous budget takes the hit
    refine (hbuild generousBudget).mp (hall generousBudget) hit ?_
    exact generousBudget_takes (le_trans hwithin.tokens htokens.2) hcount hdistinct hhit
  · refine (hbuild budget).mpr fun hit hhit => hframes hit ?_
    exact hperm.mem_iff.mp ((hchosen budget).subset hhit)

end

/-! ## A text of brackets -/

section

variable [DecidableEq S] [LinearOrder K] {sha : Sha256} {unicode : Unicode}
  {attributes : MemoryRecord → RecordAttributes} {ranking : Ranking V S K}

/-- A retrieval that finds nothing remembered, and remembers nothing. -/
theorem retrieve_of_compute {s : HybridIndex S} {query : RetrievalQuery} {vector : List V}
    (hvector : 2 ≤ vector.length ∧ vector.all ranking.finite = true)
    (hcache : s.cache.lookup (cacheKey sha query) = none) (httl : query.policy.cacheTtlSeconds = 0)
    {result : RetrievalResult S}
    (h : compute sha unicode attributes ranking query vector (itemsOf s.items) = .ok result) :
    retrieve sha unicode attributes ranking query vector s = (.ok result, s) := by
  have hfresh : retrieveFresh sha unicode attributes ranking query vector s = (.ok result, s) := by
    have hlift : (Exec.lift (compute sha unicode attributes ranking query vector (itemsOf s.items)) :
        IndexAction S _) s = (.ok result, s) := by
      rw [h]
      rfl
    refine (Exec.bind_returns (rfl : Exec.read s = (.ok s, s))).trans ((Exec.bind_returns hlift).trans ?_)
    rw [httl]
    rfl
  unfold retrieve
  rw [Exec.require_pos hvector]
  refine (Exec.bind_returns (rfl : Exec.ret () s = (.ok (), s))).trans ?_
  refine (Exec.bind_returns (rfl : Exec.read s = (.ok s, s))).trans ?_
  rw [hcache]
  exact hfresh

theorem mmr_singleton (policy : RetrievalPolicy) (p : Scored S) : mmr ranking policy [p] = [p] := by
  obtain ⟨n, hn⟩ : ∃ n, policy.topK = n + 1 := ⟨_, (Nat.sub_add_cancel policy.topK_ok.1).symm⟩
  have hbest : best ranking policy [] [p] = some p := rfl
  rw [mmr, hn, Selection.draw_singleton hbest]
  cases n <;> rfl

omit [DecidableEq S] [LinearOrder K] in
theorem length_escape_brackets (n : Nat) : (escapeBrackets (List.replicate n '<')).length = 4 * n := by
  induction n with
  | zero => rfl
  | succ n ih =>
    have hcons : escapeBrackets ('<' :: List.replicate n '<') =
        ['&', 'l', 't', ';'] ++ escapeBrackets (List.replicate n '<') := rfl
    rw [List.replicate_succ, hcons, List.length_append, ih]
    show 4 + 4 * n = 4 * (n + 1)
    omega

omit [DecidableEq S] [LinearOrder K] in
theorem escape_length_le (hit : RetrievalHit S) :
    (escapeBrackets hit.text.toList).length + 1 ≤ (frameUntrusted hit).length := by
  simp only [frameUntrusted, List.length_append, List.length_singleton]
  omega

/-- **A retrieval of one item**: what is indexed alone, eligible and within the policy, is the hit. -/
theorem retrieve_one {item : IndexedChunk} {valid : ValidChunk sha item.chunk} {query : RetrievalQuery}
    {vector : List V}
    (hbinding : item.record.tenantId = item.chunk.tenantId ∧ item.chunk.chunkId = item.vector.chunkId
      ∧ item.chunk.contentDigest = item.vector.contentDigest
      ∧ item.vector.dimensions = item.record.embeddingDimensions
      ∧ (item.record.status = .accepted ∨ item.record.status = .active))
    (hvector : 2 ≤ vector.length ∧ vector.all ranking.finite = true)
    (httl : query.policy.cacheTtlSeconds = 0) (hquery : ∃ ts, terms unicode query.text = .ok ts)
    (heligible : eligible attributes query item = true) (hdimensions : item.vector.dimensions = vector.length)
    (htext : ∃ ts, terms unicode item.chunk.text = .ok ts)
    (hfits : fitsPolicy query.policy [] (item, hitOf ranking query vector item) = true) :
    ∃ result s', retrieve sha unicode attributes ranking query vector
        (indexRun sha unicode attributes ranking [.index item valid]) = (.ok result, s') ∧
      result.hits.map RetrievalHit.plain = [hitOf ranking query vector item] := by
  have hindex : HybridIndex.index item (HybridIndex.start S) = (.ok (),
      { items := (∅ : IndexItems).insert (item.record.tenantId.val, item.chunk.chunkId.val) item
        cache := forgetTenant ∅ item.record.tenantId.val }) := by
    unfold HybridIndex.index
    rw [Exec.require_pos hbinding]
    rfl
  have hrun : indexRun sha unicode attributes ranking [.index item valid] =
      { items := (∅ : IndexItems).insert (item.record.tenantId.val, item.chunk.chunkId.val) item
        cache := forgetTenant ∅ item.record.tenantId.val } := by
    show ((HybridIndex.index item >>= fun _ => pure none : IndexAction S _) (HybridIndex.start S)).2 = _
    rw [Exec.bind_returns hindex]
    rfl
  have hitems : itemsOf (indexRun sha unicode attributes ranking [.index item valid]).items = [item] := by
    rw [hrun]
    rfl
  have hcache : (indexRun sha unicode attributes ranking [.index item valid]).cache.lookup
      (cacheKey sha query) = none := by
    rw [hrun]
    rfl
  have hscored : scoredItems attributes query vector [item] = [item] := by
    rw [scoredItems, List.filter_cons_of_pos, List.filter_nil]
    rw [heligible, hdimensions]
    simp
  obtain ⟨ts, hterms⟩ := hquery
  obtain ⟨ts', hterms'⟩ := htext
  obtain ⟨result, hresult⟩ : ∃ result,
      compute sha unicode attributes ranking query vector [item] = .ok result := by
    refine ⟨_, except_bind_ok.mpr ⟨ts, hterms, except_bind_ok.mpr ⟨[(item, hitOf ranking query vector item)], ?_, rfl⟩⟩⟩
    rw [hscored, List.mapM_cons]
    refine except_bind_ok.mpr ⟨_, except_bind_ok.mpr ⟨ts', hterms', rfl⟩, rfl⟩
  have hselected : selectedOf attributes ranking query vector [item] =
      [(item, hitOf ranking query vector item)] := by
    have hpool : candidatesOf attributes ranking query vector [item] =
        [(item, hitOf ranking query vector item)] := by
      rw [candidatesOf, hscored, candidates]
      exact List.take_of_length_le query.policy.candidates_ok.1
    rw [selectedOf, hpool, mmr_singleton]
  have hvalid : ∀ i ∈ [item], ValidChunk sha i.chunk := fun i hi => List.mem_singleton.mp hi ▸ valid
  obtain ⟨g, htracks, hg⟩ := compute_tracks hvalid hresult
  refine ⟨result, _, retrieve_of_compute hvector hcache httl (hitems ▸ hresult), ?_⟩
  have hhits : result.hits = g.hits := congrArg RetrievalResult.hits hg
  rw [hhits, htracks.hits, hselected, admitted, Selection.pick, if_pos hfits]
  rfl

end

/-! ## Worked contexts -/

theorem retrieval_budgets_sample : ∃ result s', diskRetrieve [diskOne] = (.ok result, s') ∧
    (∃ query' vector' items,
      ScoredBy diskSha asciiUnicode openAttributes flatRanking [diskOne] (diskQuery diskSha) [0, 1]
        result.cacheHit query' vector' items ∧
      query'.policy.numbers = flatPolicy.numbers ∧
      WithinPolicy flatPolicy (candidatesOf openAttributes flatRanking query' vector' (itemsOf items))
        result.hits) ∧
    ∀ budget context, build diskSha asciiUnicode result budget = .ok context →
      WithinBudget asciiUnicode budget result.hits context := by
  have hok : (diskRetrieve [diskOne]).1.toOption.map (fun r => r.cacheHit) = some false := by
    decide +kernel
  rcases hrun : diskRetrieve [diskOne] with ⟨answer, s'⟩
  rw [hrun] at hok
  cases answer with
  | error e => cases hok
  | ok result =>
    have hfresh : result.cacheHit = false := Option.some.inj hok
    obtain ⟨hpolicy, -, hbudget⟩ := retrieval_budgets hrun fun hcached => by
      rw [hfresh] at hcached
      cases hcached
    exact ⟨result, s', rfl, hpolicy, hbudget⟩

theorem context_total_sample : ∃ result s', diskRetrieve [diskOne] = (.ok result, s') ∧
    ((∃ context, build diskSha asciiUnicode result generousBudget = .ok context) ↔
      ∀ hit ∈ chosenHits diskSha asciiUnicode generousBudget result.hits,
        (frameUntrusted hit).length ≤ maxMemoryText) := by
  have hok : (diskRetrieve [diskOne]).1.isOk = true := by decide +kernel
  rcases hrun : diskRetrieve [diskOne] with ⟨answer, s'⟩
  rw [hrun] at hok
  cases answer with
  | error e => cases hok
  | ok result => exact ⟨result, s', rfl, (context_total_iff hrun).1 generousBudget⟩

/-- A text of opening brackets only. -/
def bracketText : String := repeated '<' 16384

def bracketQuery : RetrievalQuery :=
  { diskQuery Sha256.constant with
    policy := { flatPolicy with maximumTokens := 8192, maximumBytes := 32768,
                                tokens_ok := by decide, bytes_ok := by decide } }

/-- A text that is one chunk, indexed. -/
def chunkItem (text : String) : IndexedChunk :=
  let chunk := chunkOf Sha256.constant chunkTenant chunkMemory chunkCitation 0 text.toList
  { memoryItem Sha256.constant chunkMemory "disk full" with
    chunk, vector := ⟨chunk.chunkId, chunk.contentDigest, 2⟩ }

/-- What a chunk that fits is retrieved as. -/
theorem retrieve_chunkItem {text : String} (hcanonical : canonicalText id text = .ok text)
    (hvalid : ValidChunk Sha256.constant (chunkItem text).chunk)
    (htokens : tokenEstimate text.toList ≤ 8192) (hbytes : Text.byteLength text.toList ≤ 32768) :
    ∃ result s', retrieve Sha256.constant asciiUnicode openAttributes flatRanking bracketQuery [0, 1]
        (indexRun Sha256.constant asciiUnicode openAttributes flatRanking [.index (chunkItem text) hvalid]) =
        (.ok result, s') ∧
      ∃ hit, result.hits = [hit] ∧ hit.text = text := by
  have hterms : ∀ text, canonicalText id text = .ok text → ∃ ts, terms asciiUnicode text = .ok ts :=
    fun text htext => ⟨_, except_bind_ok.mpr ⟨text, htext, rfl⟩⟩
  have htext : (chunkItem text).chunk.text = text := String.ofList_toList
  have hroom : fitsPolicy bracketQuery.policy []
      (chunkItem text, hitOf flatRanking bracketQuery [0, 1] (chunkItem text)) = true := by
    refine decide_eq_true ⟨by decide, ?_, ?_⟩
    · rw [List.map_nil, List.sum_nil, Nat.zero_add, hvalid.tokens, htext]
      exact htokens
    · rw [List.map_nil, List.sum_nil, Nat.zero_add, hvalid.bytes, htext]
      exact hbytes
  have hitem : ∃ ts, terms asciiUnicode (chunkItem text).chunk.text = .ok ts := by
    rw [htext]
    exact hterms _ hcanonical
  have hvector : 2 ≤ [0, 1].length ∧ [0, 1].all flatRanking.finite = true := by decide
  have heligible : eligible openAttributes bracketQuery (chunkItem text) = true := rfl
  have hquery : ∃ ts, terms asciiUnicode bracketQuery.text = .ok ts := hterms "disk full" (by decide)
  obtain ⟨result, s', hrun, hhits⟩ := retrieve_one ⟨rfl, rfl, rfl, rfl, .inr rfl⟩ hvector rfl hquery
    heligible rfl hitem hroom
  obtain ⟨hit, hone⟩ : ∃ hit, result.hits = [hit] := List.length_eq_one_iff.mp (by
    rw [← List.length_map, hhits, List.length_singleton])
  refine ⟨result, s', hrun, hit, hone, ?_⟩
  rw [hone, List.map_singleton, List.singleton_inj] at hhits
  have hplain : hit.text = (chunkItem text).chunk.text := congrArg RetrievalHit.text hhits
  rw [hplain, htext]

theorem bracketText_bytes : Text.byteLength bracketText.toList = 16384 := by
  rw [bracketText, repeated, String.toList_ofList, Text.byteLength_replicate]
  decide

theorem bracketText_fits : Fits bracketText.toList := by
  have hbytes := bracketText_bytes
  refine ⟨?_, ?_, ?_, ?_⟩
  · rw [bracketText, repeated, String.toList_ofList]
    exact List.ne_nil_of_length_pos (by rw [List.length_replicate]; decide)
  · rw [bracketText, repeated, String.toList_ofList, List.length_replicate]
    decide
  · rw [tokenEstimate, hbytes]
    decide
  · rw [hbytes]
    decide

/-- **A context that is not built**: 16,384 brackets are one chunk of 4,096 tokens, and are framed by more
    than 65,536 characters. -/
theorem context_not_built :
    ∃ (valid : ValidChunk Sha256.constant (chunkItem bracketText).chunk) (result : _) (s' : _),
      split Sha256.constant id defaultChunker chunkTenant.val chunkMemory.val bracketText chunkCitation =
        .ok [(chunkItem bracketText).chunk] ∧
      retrieve Sha256.constant asciiUnicode openAttributes flatRanking bracketQuery [0, 1]
        (indexRun Sha256.constant asciiUnicode openAttributes flatRanking
          [.index (chunkItem bracketText) valid]) = (.ok result, s') ∧
      ¬∃ context, build Sha256.constant asciiUnicode result generousBudget = .ok context := by
  have hchars : bracketText.toList = List.replicate 16384 '<' := String.toList_ofList
  have htokens : tokenEstimate bracketText.toList = 4096 := by
    rw [tokenEstimate, bracketText_bytes]
    decide
  obtain ⟨hcanonical, hwords⟩ : canonicalText id bracketText = .ok bracketText ∧
      Text.words bracketText.toList = [List.replicate 16384 '<'] :=
    canonical_repeated (by decide) (by decide) (by decide) (by decide)
  have hvalid : ValidChunk Sha256.constant (chunkItem bracketText).chunk := chunkOf_valid bracketText_fits
  have hsplit : split Sha256.constant id defaultChunker chunkTenant.val chunkMemory.val bracketText
      chunkCitation = .ok [(chunkItem bracketText).chunk] :=
    split_word hcanonical (by rw [hwords, hchars]) bracketText_fits
  obtain ⟨result, s', hrun, hit, hone, htext⟩ := retrieve_chunkItem hcanonical hvalid
    (by rw [htokens]; decide) (by rw [bracketText_bytes]; decide)
  refine ⟨hvalid, result, s', hsplit, hrun, fun hbuilt => ?_⟩
  have hmem : hit ∈ chosenHits Sha256.constant asciiUnicode generousBudget result.hits := by
    rw [hone]
    refine generousBudget_takes ?_ (by rw [List.length_singleton]; decide) ?_ (List.mem_singleton_self hit)
    · rw [hitTokens, List.map_singleton, List.sum_singleton, htext, htokens]
      decide
    · rw [List.map_singleton]
      exact List.nodup_singleton _
  obtain ⟨-, hframes, -⟩ := build_ok_iff.mp hbuilt
  have hlong := escape_length_le hit
  rw [htext, hchars, length_escape_brackets] at hlong
  exact absurd (hframes hit hmem) (by unfold maxMemoryText; omega)

end Memory

end Aegis
