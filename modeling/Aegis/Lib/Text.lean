/-
  TEXTS AS LISTS OF CHARACTERS: whitespace, words, lines, and the bytes of UTF-8.

  `words` and `lines` are `str.split()` and `str.splitlines()`.  Joining words with one space and
  splitting again gives the words back (`words_join`), and the joined words are never longer than the
  text they come from (`join_words_length`).

  `foldLines` strips the lines of a text and joins them with line feeds; it keeps the words, and doing it
  twice is doing it once (`foldLines_foldLines`).
-/
import Mathlib

namespace Aegis

namespace Text

/-! ## Whitespace -/

/-- `str.isspace` for a character. -/
def isSpace (c : Char) : Bool :=
  let n := c.toNat
  (decide (9 ≤ n) && decide (n ≤ 13)) || (decide (28 ≤ n) && decide (n ≤ 32)) || n == 0x85 || n == 0xa0
    || n == 0x1680 || (decide (0x2000 ≤ n) && decide (n ≤ 0x200a)) || n == 0x2028 || n == 0x2029
    || n == 0x202f || n == 0x205f || n == 0x3000

/-- The characters that end a line for `str.splitlines`. -/
def isLineBreak (c : Char) : Bool :=
  let n := c.toNat
  (decide (10 ≤ n) && decide (n ≤ 13)) || (decide (28 ≤ n) && decide (n ≤ 30)) || n == 0x85
    || n == 0x2028 || n == 0x2029

theorem isSpace_of_isLineBreak {c : Char} (h : isLineBreak c = true) : isSpace c = true := by
  simp only [isLineBreak, isSpace, Bool.or_eq_true, Bool.and_eq_true, decide_eq_true_eq,
    beq_iff_eq] at h ⊢
  omega

/-- `str.rstrip`. -/
def rstrip (cs : List Char) : List Char := cs.rdropWhile isSpace

/-- `str.strip`. -/
def strip (cs : List Char) : List Char := rstrip (cs.dropWhile isSpace)

/-- `str.splitlines`, where no carriage return is left: a break at the end opens no new line. -/
def lines (cs : List Char) : List (List Char) :=
  let parts := cs.splitOnP isLineBreak
  if parts.getLast? = some [] then parts.dropLast else parts

/-- `sep.join(parts)` for one character. -/
def join (sep : Char) (parts : List (List Char)) : List Char := [sep].intercalate parts

/-! ## Words -/

/-- `str.split()`. -/
def words (cs : List Char) : List (List Char) := (cs.splitOnP isSpace).filter (· ≠ [])

/-- A word: not empty, and without whitespace. -/
def IsWord (w : List Char) : Prop := w ≠ [] ∧ ∀ c ∈ w, isSpace c = false

theorem mem_splitOnP {p : Char → Bool} {cs : List Char} :
    ∀ w ∈ cs.splitOnP p, ∀ c ∈ w, p c = false := by
  induction cs with
  | nil =>
    intro w hw
    rw [List.splitOnP_nil, List.mem_singleton] at hw
    subst hw
    intro c hc
    cases hc
  | cons d cs ih =>
    intro w hw c hc
    rw [List.splitOnP_cons_eq_if_modifyHead] at hw
    cases hd : p d with
    | true =>
      rw [if_pos hd] at hw
      rcases List.mem_cons.mp hw with rfl | hw
      · cases hc
      · exact ih w hw c hc
    | false =>
      rw [if_neg (by rw [hd]; exact Bool.false_ne_true)] at hw
      obtain ⟨v, vs, hvs⟩ := List.exists_cons_of_ne_nil (List.splitOnP_ne_nil p cs)
      rw [hvs] at hw ih
      rcases List.mem_cons.mp hw with rfl | hw
      · rcases List.mem_cons.mp hc with rfl | hc
        · exact hd
        · exact ih v List.mem_cons_self c hc
      · exact ih w (List.mem_cons_of_mem _ hw) c hc

theorem isWord_of_mem {cs w : List Char} (h : w ∈ words cs) : IsWord w := by
  obtain ⟨hw, hne⟩ := List.mem_filter.mp h
  exact ⟨of_decide_eq_true hne, mem_splitOnP w hw⟩

theorem exists_splitOnP {p : Char → Bool} {cs : List Char} {c : Char} (hc : c ∈ cs) (hp : p c = false) :
    ∃ w ∈ cs.splitOnP p, c ∈ w := by
  induction cs with
  | nil => cases hc
  | cons d cs ih =>
    rw [List.splitOnP_cons_eq_if_modifyHead]
    rcases List.mem_cons.mp hc with rfl | hc
    · rw [if_neg (by rw [hp]; exact Bool.false_ne_true)]
      obtain ⟨v, vs, hvs⟩ := List.exists_cons_of_ne_nil (List.splitOnP_ne_nil p cs)
      rw [hvs]
      exact ⟨_, List.mem_cons_self, List.mem_cons_self⟩
    · obtain ⟨w, hw, hcw⟩ := ih hc
      split
      · exact ⟨w, List.mem_cons_of_mem _ hw, hcw⟩
      · obtain ⟨v, vs, hvs⟩ := List.exists_cons_of_ne_nil (List.splitOnP_ne_nil p cs)
        rw [hvs] at hw ⊢
        rcases List.mem_cons.mp hw with rfl | hw
        · exact ⟨_, List.mem_cons_self, List.mem_cons_of_mem _ hcw⟩
        · exact ⟨w, List.mem_cons_of_mem _ hw, hcw⟩

/-- A text without words is all whitespace. -/
theorem space_of_words_nil {cs : List Char} (h : words cs = []) : ∀ c ∈ cs, isSpace c = true := by
  intro c hc
  by_contra hspace
  obtain ⟨w, hw, hcw⟩ := exists_splitOnP hc (Bool.eq_false_of_not_eq_true hspace)
  have hmem : w ∈ words cs := List.mem_filter.mpr ⟨hw, decide_eq_true (List.ne_nil_of_mem hcw)⟩
  rw [h] at hmem
  cases hmem

/-- What is left of a text that is stripped has words. -/
theorem words_strip {cs : List Char} (h : strip cs ≠ []) : words (strip cs) ≠ [] := by
  intro hnil
  have hlast := List.rdropWhile_last_not isSpace (cs.dropWhile isSpace) h
  exact hlast (space_of_words_nil hnil _ (List.getLast_mem h))

/-- One word. -/
theorem words_word {w : List Char} (h : IsWord w) : words w = [w] := by
  rw [words, List.splitOnP_eq_singleton h.2]
  exact List.filter_cons_of_pos (decide_eq_true h.1)

/-- A word and a space in front. -/
theorem words_cons {w cs : List Char} (h : IsWord w) : words (w ++ ' ' :: cs) = w :: words cs := by
  rw [words, List.splitOnP_append_cons_of_forall_mem h.2 ' ' (by decide)]
  exact List.filter_cons_of_pos (decide_eq_true h.1)

@[simp] theorem join_singleton (sep : Char) (w : List Char) : join sep [w] = w := by
  simp [join, List.intercalate]

theorem join_cons_cons (sep : Char) (w v : List Char) (ws : List (List Char)) :
    join sep (w :: v :: ws) = w ++ sep :: join sep (v :: ws) := by
  simp [join, List.intercalate]

/-- **Joined words are split into the same words.** -/
theorem words_join {ws : List (List Char)} (h : ∀ w ∈ ws, IsWord w) : words (join ' ' ws) = ws := by
  induction ws with
  | nil => rfl
  | cons w ws ih =>
    have hw := h w List.mem_cons_self
    cases ws with
    | nil => rw [join_singleton, words_word hw]
    | cons v vs =>
      rw [join_cons_cons, words_cons hw, ih fun x hx => h x (List.mem_cons_of_mem _ hx)]

/-! ## Lengths -/

/-- The characters of the parts, with one separator after each. -/
def spread (parts : List (List Char)) : Nat := (parts.map fun w => w.length + 1).sum

@[simp] theorem spread_cons (w : List Char) (ws : List (List Char)) :
    spread (w :: ws) = w.length + 1 + spread ws := by
  simp [spread]

theorem join_length (sep : Char) {ws : List (List Char)} (h : ws ≠ []) :
    (join sep ws).length + 1 = spread ws := by
  induction ws with
  | nil => exact absurd rfl h
  | cons w ws ih =>
    cases ws with
    | nil => simp [spread]
    | cons v vs =>
      have hrest := ih (List.cons_ne_nil v vs)
      rw [join_cons_cons, List.length_append, List.length_cons, spread_cons, ← hrest]
      omega

theorem spread_splitOnP (p : Char → Bool) (cs : List Char) : spread (cs.splitOnP p) = cs.length + 1 := by
  induction cs with
  | nil => rfl
  | cons c cs ih =>
    rw [List.splitOnP_cons_eq_if_modifyHead]
    split
    · rw [spread_cons, ih, List.length_nil, List.length_cons]
      omega
    · obtain ⟨v, vs, hvs⟩ := List.exists_cons_of_ne_nil (List.splitOnP_ne_nil p cs)
      rw [hvs, spread_cons] at ih
      rw [hvs, List.modifyHead_cons, spread_cons, List.length_cons, List.length_cons]
      omega

theorem spread_sublist {ws vs : List (List Char)} (h : ws.Sublist vs) : spread ws ≤ spread vs :=
  (h.map _).sum_le_sum fun _ _ => Nat.zero_le _

/-- **Words of a text, joined with single spaces, are no longer than the text.** -/
theorem join_words_length {cs : List Char} {ws : List (List Char)} (h : ws.Sublist (words cs)) :
    (join ' ' ws).length ≤ cs.length := by
  rcases eq_or_ne ws [] with rfl | hne
  · exact Nat.zero_le _
  · have hjoin := join_length ' ' hne
    have hsub := spread_sublist (h.trans List.filter_sublist)
    rw [spread_splitOnP] at hsub
    omega

/-- Joined words are empty only when there is none. -/
theorem join_eq_nil {sep : Char} {ws : List (List Char)} (h : ∀ w ∈ ws, w ≠ []) :
    join sep ws = [] ↔ ws = [] := by
  constructor
  · intro hnil
    cases ws with
    | nil => rfl
    | cons w ws =>
      have hlen := join_length sep (List.cons_ne_nil w ws)
      have hw := List.length_pos_iff.mpr (h w List.mem_cons_self)
      rw [hnil, spread_cons, List.length_nil] at hlen
      omega
  · rintro rfl
    rfl

/-! ## Bytes -/

/-- `len(text.encode())`. -/
def byteLength (cs : List Char) : Nat := (cs.map Char.utf8Size).sum

@[simp] theorem byteLength_cons (c : Char) (cs : List Char) :
    byteLength (c :: cs) = c.utf8Size + byteLength cs := by
  rw [byteLength, List.map_cons, List.sum_cons, byteLength]

@[simp] theorem byteLength_append (cs ds : List Char) :
    byteLength (cs ++ ds) = byteLength cs + byteLength ds := by
  rw [byteLength, List.map_append, List.sum_append, byteLength, byteLength]

theorem byteLength_le (cs : List Char) : byteLength cs ≤ 4 * cs.length := by
  induction cs with
  | nil => exact le_refl _
  | cons c cs ih =>
    have hc : c.utf8Size ≤ 4 := c.utf8Size_le_four
    rw [List.length_cons, byteLength_cons]
    omega

theorem byteLength_replicate (n : Nat) (c : Char) :
    byteLength (List.replicate n c) = n * c.utf8Size := by
  rw [byteLength, List.map_replicate, List.sum_replicate, smul_eq_mul]

/-! ## Cuts at the first separator -/

/-- What stands before the first separator is determined. -/
theorem first_split {p : Char → Bool} {a b c d : List Char} {x y : Char} (ha : ∀ z ∈ a, p z = false)
    (hc : ∀ z ∈ c, p z = false) (hx : p x = true) (hy : p y = true) (h : a ++ x :: b = c ++ y :: d) : a = c ∧ x = y ∧ b = d := by
  induction a generalizing c with
  | nil =>
    cases c with
    | nil =>
      obtain ⟨rfl, rfl⟩ := List.cons.inj h
      exact ⟨rfl, rfl, rfl⟩
    | cons z c =>
      obtain ⟨rfl, -⟩ := List.cons.inj h
      rw [hc x List.mem_cons_self] at hx
      cases hx
  | cons z a ih =>
    cases c with
    | nil =>
      obtain ⟨rfl, -⟩ := List.cons.inj h
      rw [ha z List.mem_cons_self] at hy
      cases hy
    | cons w c =>
      obtain ⟨rfl, htail⟩ := List.cons.inj h
      obtain ⟨rfl, rfl, rfl⟩ := ih (fun v hv => ha v (List.mem_cons_of_mem _ hv))
        (fun v hv => hc v (List.mem_cons_of_mem _ hv)) htail
      exact ⟨rfl, rfl, rfl⟩

/-- **Induction over the parts of a text**: it has no separator, or it is a part without one, a separator
    and the rest. -/
theorem cut_induction (p : Char → Bool) {motive : List Char → Prop}
    (last : ∀ w, (∀ z ∈ w, p z = false) → motive w)
    (step : ∀ w x rest, (∀ z ∈ w, p z = false) → p x = true → motive rest → motive (w ++ x :: rest))
    (cs : List Char) : motive cs := by
  induction hn : cs.length using Nat.strong_induction_on generalizing cs with
  | _ n ih =>
    have hfront : ∀ z ∈ cs.takeWhile (fun c => !p c), p z = false := fun z hz => by
      simpa using List.mem_takeWhile_imp hz
    cases hrest : cs.dropWhile fun c => !p c with
    | nil =>
      have hall := List.takeWhile_append_dropWhile (p := fun c => !p c) (l := cs)
      rw [hrest, List.append_nil] at hall
      rw [← hall]
      exact last _ hfront
    | cons x rest =>
      have hall := List.takeWhile_append_dropWhile (p := fun c => !p c) (l := cs)
      have hx : p x = true := by
        have hhead := List.head_dropWhile_not (fun c => !p c) (l := cs) (by rw [hrest]; exact List.cons_ne_nil _ _)
        simp only [hrest, List.head_cons] at hhead
        simpa using hhead
      rw [hrest] at hall
      rw [← hall]
      refine step _ x rest hfront hx (ih rest.length ?_ rest rfl)
      have hlength := congrArg List.length hall
      rw [List.length_append, List.length_cons] at hlength
      omega

/-! ## The words of what is left -/

theorem words_append {a b : List Char} {x : Char} (hx : isSpace x = true) :
    words (a ++ x :: b) = words a ++ words b := by
  rw [words, List.splitOnP_append_cons a b hx, List.filter_append, words, words]

theorem words_nil : words [] = [] := rfl

/-- A part without whitespace is a word, unless it is empty. -/
theorem words_part {w : List Char} (h : ∀ z ∈ w, isSpace z = false) : words w = if w = [] then [] else [w] := by
  split
  · rename_i hw
    rw [hw, words_nil]
  · rename_i hw
    exact words_word ⟨hw, h⟩

theorem words_dropWhile (cs : List Char) : words (cs.dropWhile isSpace) = words cs := by
  induction cs with
  | nil => rfl
  | cons c cs ih =>
    cases hc : isSpace c with
    | false => rw [List.dropWhile_cons_of_neg (by rw [hc]; exact Bool.false_ne_true)]
    | true =>
      rw [List.dropWhile_cons_of_pos hc, ih]
      exact (words_append (a := []) hc).symm

theorem words_rstrip (cs : List Char) : words (rstrip cs) = words cs := by
  induction cs using List.reverseRecOn with
  | nil => rfl
  | append_singleton cs c ih =>
    cases hc : isSpace c with
    | false => rw [rstrip, List.rdropWhile_concat_neg _ _ _ (by rw [hc]; exact Bool.false_ne_true)]
    | true =>
      rw [rstrip, List.rdropWhile_concat_pos _ _ _ hc, ← rstrip, ih, words_append hc, words_nil, List.append_nil]

theorem words_strip_eq (cs : List Char) : words (strip cs) = words cs :=
  (words_rstrip _).trans (words_dropWhile cs)

theorem words_joined {sep : Char} (hsep : isSpace sep = true) (parts : List (List Char)) :
    words (join sep parts) = parts.flatMap words := by
  induction parts with
  | nil => rfl
  | cons w ws ih =>
    cases ws with
    | nil => rw [join_singleton, List.flatMap_cons, List.flatMap_nil, List.append_nil]
    | cons v vs => rw [join_cons_cons, words_append hsep, ih, List.flatMap_cons (x := w)]

theorem words_splitOnP {p : Char → Bool} (hbreak : ∀ c, p c = true → isSpace c = true) (cs : List Char) :
    (cs.splitOnP p).flatMap words = words cs := by
  induction cs using cut_induction p with
  | last w hw => rw [List.splitOnP_eq_singleton hw, List.flatMap_cons, List.flatMap_nil, List.append_nil]
  | step w x rest hw hx ih =>
    rw [List.splitOnP_append_cons_of_forall_mem hw x hx, List.flatMap_cons, ih, words_append (hbreak x hx)]

/-- The line that is left out is empty. -/
theorem words_lines (cs : List Char) : (lines cs).flatMap words = words cs := by
  have hsplit := words_splitOnP (p := isLineBreak) (fun c hc => isSpace_of_isLineBreak hc) cs
  unfold lines
  dsimp only
  split
  · rename_i hlast
    have hparts := List.dropLast_append_getLast? [] hlast
    rw [← hparts, List.flatMap_append] at hsplit
    rw [← hsplit, List.flatMap_cons, words_nil, List.flatMap_nil, List.append_nil, List.append_nil]
  · exact hsplit

/-! ## Folded lines -/

/-- Lines stripped on the right, joined again, and the whole stripped. -/
def foldLines (cs : List Char) : List Char := strip (join '\n' ((lines cs).map rstrip))

/-- Only line feeds end lines, and no line ends in whitespace. -/
structure Folded (cs : List Char) : Prop where
  breaks : ∀ c ∈ cs, isLineBreak c = true → c = '\n'
  ends : cs.IsChain fun a b => b = '\n' → isSpace a = true → a = '\n'

theorem strip_strip (cs : List Char) : strip (strip cs) = strip cs := by
  have hhead : (strip cs).dropWhile isSpace = strip cs := by
    cases hstrip : strip cs with
    | nil => rfl
    | cons c rest =>
      obtain ⟨tail, htail⟩ := List.rdropWhile_prefix isSpace (l := cs.dropWhile isSpace)
      have hfirst : cs.dropWhile isSpace = c :: (rest ++ tail) := by
        rw [← htail]
        show strip cs ++ tail = _
        rw [hstrip]
        rfl
      have hc := List.head_dropWhile_not isSpace (l := cs) (by rw [hfirst]; exact List.cons_ne_nil _ _)
      simp only [hfirst, List.head_cons] at hc
      exact List.dropWhile_cons_of_neg (by rw [hc]; exact Bool.false_ne_true)
  show rstrip ((strip cs).dropWhile isSpace) = _
  rw [hhead]
  exact List.rdropWhile_idempotent _ _

theorem strip_isInfix (cs : List Char) : strip cs <:+: cs :=
  (List.rdropWhile_prefix isSpace _).isInfix.trans (List.dropWhile_suffix isSpace).isInfix

theorem Folded.part {cs ds : List Char} (h : Folded ds) (hin : cs <:+: ds) : Folded cs := by
  refine ⟨fun c hc => h.breaks c (hin.subset hc), ?_⟩
  obtain ⟨before, after, rfl⟩ := hin
  exact (List.isChain_append.mp (List.isChain_append.mp h.ends).1).2.1

/-- A line without breaks that is stripped on the right. -/
structure Line (w : List Char) : Prop where
  unbroken : ∀ c ∈ w, isLineBreak c = false
  stripped : rstrip w = w

theorem Line.last {w : List Char} (h : Line w) : ∀ c ∈ w.getLast?, isSpace c = false := by
  intro c hc
  have hne : w ≠ [] := by
    rintro rfl
    cases hc
  have hlast := List.rdropWhile_eq_self_iff.mp h.stripped hne
  rw [List.getLast?_eq_some_getLast hne] at hc
  rw [Option.mem_some_iff.mp hc] at hlast
  exact Bool.eq_false_of_not_eq_true hlast

theorem folded_line {w : List Char} (h : Line w) : Folded w where
  breaks := fun c hc hbreak => by
    rw [h.unbroken c hc] at hbreak
    cases hbreak
  ends := List.IsChain.imp_of_mem_imp (R := fun _ _ => True) (fun a b _ hb _ hfeed => by
    have hbreak := h.unbroken b hb
    rw [hfeed] at hbreak
    exact absurd hbreak (by decide)) (List.Pairwise.isChain (List.pairwise_of_forall fun _ _ => trivial))

theorem folded_cons {w cs : List Char} (hw : Line w) (hcs : Folded cs) : Folded (w ++ '\n' :: cs) where
  breaks := fun c hc hbreak => by
    rcases List.mem_append.mp hc with hc | hc
    · exact (folded_line hw).breaks c hc hbreak
    · rcases List.mem_cons.mp hc with rfl | hc
      · rfl
      · exact hcs.breaks c hc hbreak
  ends := by
    refine List.isChain_append.mpr ⟨(folded_line hw).ends, ?_, fun a ha b _ _ hspace => ?_⟩
    · exact List.isChain_cons.mpr ⟨fun _ _ _ _ => rfl, hcs.ends⟩
    · rw [hw.last a ha] at hspace
      cases hspace

theorem folded_join {ws : List (List Char)} (h : ∀ w ∈ ws, Line w) : Folded (join '\n' ws) := by
  induction ws with
  | nil => exact ⟨nofun, List.isChain_nil⟩
  | cons w ws ih =>
    cases ws with
    | nil =>
      rw [join_singleton]
      exact folded_line (h w List.mem_cons_self)
    | cons v vs =>
      rw [join_cons_cons]
      exact folded_cons (h w List.mem_cons_self) (ih fun x hx => h x (List.mem_cons_of_mem _ hx))

theorem mem_lines {cs w : List Char} (h : w ∈ lines cs) : w ∈ cs.splitOnP isLineBreak := by
  unfold lines at h
  dsimp only at h
  split at h
  · exact List.mem_of_mem_dropLast h
  · exact h

theorem foldLines_folded (cs : List Char) : Folded (foldLines cs) := by
  refine (folded_join fun w hw => ?_).part (strip_isInfix _)
  obtain ⟨l, hl, rfl⟩ := List.mem_map.mp hw
  refine ⟨fun c hc => ?_, List.rdropWhile_idempotent _ _⟩
  exact mem_splitOnP l (mem_lines hl) c ((List.rdropWhile_prefix isSpace _).subset hc)

/-- What follows a break of a stripped text is not empty, and is stripped. -/
theorem rstrip_rest {w rest : List Char} {x : Char} (hx : isSpace x = true)
    (h : rstrip (w ++ x :: rest) = w ++ x :: rest) : rest ≠ [] ∧ rstrip rest = rest := by
  have hlast := List.rdropWhile_eq_self_iff.mp h (List.append_ne_nil_of_right_ne_nil _ (List.cons_ne_nil _ _))
  have hne : rest ≠ [] := by
    rintro rfl
    rw [List.getLast_append_of_ne_nil _ (List.cons_ne_nil _ _)] at hlast
    exact hlast hx
  refine ⟨hne, List.rdropWhile_eq_self_iff.mpr fun _ => ?_⟩
  rwa [List.getLast_append_of_ne_nil _ (List.cons_ne_nil _ _), List.getLast_cons hne] at hlast

/-- A folded text is its lines. -/
theorem folded_lines {cs : List Char} (h : Folded cs) (hstripped : rstrip cs = cs) :
    join '\n' ((cs.splitOnP isLineBreak).map rstrip) = cs ∧
      (cs ≠ [] → (cs.splitOnP isLineBreak).getLast? ≠ some []) := by
  induction cs using cut_induction isLineBreak with
  | last w hw =>
    rw [List.splitOnP_eq_singleton hw, List.map_singleton, join_singleton]
    refine ⟨hstripped, fun hne hlast => hne ?_⟩
    exact Option.some.inj hlast
  | step w x rest hw hx ih =>
    obtain rfl : x = '\n' := h.breaks x (List.mem_append_right _ List.mem_cons_self) hx
    obtain ⟨hne, hrest⟩ := rstrip_rest (isSpace_of_isLineBreak hx) hstripped
    obtain ⟨hjoin, hlast⟩ := ih (h.part ⟨w ++ ['\n'], [], by simp⟩) hrest
    have hline : rstrip w = w := by
      refine List.rdropWhile_eq_self_iff.mpr fun hw' hspace => ?_
      have hchain := (List.isChain_append.mp h.ends).2.2 (w.getLast hw')
        (by rw [List.getLast?_eq_some_getLast hw']; rfl) '\n' rfl rfl hspace
      have hbreak := hw _ (List.getLast_mem hw')
      rw [hchain] at hbreak
      cases hbreak
    rw [List.splitOnP_append_cons_of_forall_mem hw _ hx]
    obtain ⟨v, vs, hparts⟩ := List.exists_cons_of_ne_nil (List.splitOnP_ne_nil isLineBreak rest)
    rw [hparts] at hjoin hlast ⊢
    refine ⟨?_, fun _ => ?_⟩
    · rw [List.map_cons, List.map_cons, join_cons_cons, hline, ← List.map_cons, hjoin]
    · rw [List.getLast?_cons_cons]
      exact hlast hne

/-- **Folding settles.**  A folded and stripped text is folded into itself. -/
theorem foldLines_settled {cs : List Char} (h : Folded cs) (hstripped : strip cs = cs) : foldLines cs = cs := by
  have hright : rstrip cs = cs := by
    rw [← hstripped]
    exact List.rdropWhile_idempotent _ _
  obtain ⟨hjoin, hlast⟩ := folded_lines h hright
  unfold foldLines lines
  dsimp only
  rcases eq_or_ne cs [] with rfl | hne
  · rfl
  · rw [if_neg (hlast hne), hjoin, hstripped]

theorem foldLines_foldLines (cs : List Char) : foldLines (foldLines cs) = foldLines cs :=
  foldLines_settled (foldLines_folded cs) (strip_strip _)

theorem words_foldLines (cs : List Char) : words (foldLines cs) = words cs := by
  unfold foldLines
  rw [words_strip_eq, words_joined (by decide), List.flatMap_map]
  rw [← words_lines cs]
  exact List.flatMap_congr fun w _ => words_rstrip w

/-- The parts of a text are of its characters. -/
theorem mem_of_splitOnP {p : Char → Bool} {cs w : List Char} {c : Char} (hw : w ∈ cs.splitOnP p) (hc : c ∈ w) :
    c ∈ cs := by
  induction cs using cut_induction p with
  | last v hv =>
    rw [List.splitOnP_eq_singleton hv] at hw
    rwa [List.mem_singleton.mp hw] at hc
  | step v x rest hv hx ih =>
    rw [List.splitOnP_append_cons_of_forall_mem hv x hx] at hw
    rcases List.mem_cons.mp hw with rfl | hw
    · exact List.mem_append_left _ hc
    · exact List.mem_append_right _ (List.mem_cons_of_mem _ (ih hw))

/-- Folding adds only line feeds. -/
theorem mem_foldLines {cs : List Char} {c : Char} (h : c ∈ foldLines cs) : c = '\n' ∨ c ∈ cs := by
  have hjoin : ∀ ws : List (List Char), c ∈ join '\n' ws → c = '\n' ∨ ∃ w ∈ ws, c ∈ w := by
    intro ws
    induction ws with
    | nil => exact nofun
    | cons w ws ih =>
      intro hc
      cases ws with
      | nil =>
        rw [join_singleton] at hc
        exact .inr ⟨w, List.mem_cons_self, hc⟩
      | cons v vs =>
        rw [join_cons_cons] at hc
        rcases List.mem_append.mp hc with hc | hc
        · exact .inr ⟨w, List.mem_cons_self, hc⟩
        · rcases List.mem_cons.mp hc with rfl | hc
          · exact .inl rfl
          · rcases ih hc with hfeed | ⟨u, hu, hc⟩
            · exact .inl hfeed
            · exact .inr ⟨u, List.mem_cons_of_mem _ hu, hc⟩
  rcases hjoin _ ((strip_isInfix _).subset h) with hfeed | ⟨w, hw, hc⟩
  · exact .inl hfeed
  · obtain ⟨l, hl, rfl⟩ := List.mem_map.mp hw
    exact .inr (mem_of_splitOnP (mem_lines hl) ((List.rdropWhile_prefix isSpace _).subset hc))

end Text

end Aegis
