/-
  JSON VALUES AND THEIR CANONICAL TEXT.

  The canonical text of a value is what `json.dumps(value, ensure_ascii=True, sort_keys=True,
  separators=(",", ":"))` prints: no blanks, object members in key order, every character outside
  printable ASCII escaped.  Digests are taken of this text, so the one question a development asks
  about it is whether the text DETERMINES the value.  It does (`canonicalJson_inj`): two values
  have the same canonical text exactly when they are equal up to the order of object members.

  The proof has three layers, none of which parses a whole value:
    * a string is decoded one escape at a time (`unescape_escapeChar`), so escapes never run into
      one another and never contain the closing quote;
    * a number is the longest block of number characters (`block_unique`);
    * a value is recognised by its first character (`dump_lead`), and `dump_unique` walks two
      equal texts in step, by the recursion of the printer itself.

  A number with a fraction or an exponent is kept as the text Python prints for it (`FloatText`):
  nothing here does arithmetic on it.
-/
import Mathlib

namespace Aegis

/-! ## Values -/

/-- Characters a JSON number may be written with (`Infinity` and `NaN` included, as `json.dumps`
    writes them). -/
def numberChar (c : Char) : Bool :=
  c.isDigit || "+-.eEInfityNa".toList.contains c

/-- Characters an INTEGER is written with. -/
def intChar (c : Char) : Bool := c.isDigit || c == '-'

/-- `text` is the text of a float: number characters only, at least one of them not an integer's,
    and a first character no other kind of value starts with. -/
def isFloatText (text : List Char) : Bool :=
  match text with
  | [] => false
  | c :: _ => (c.isDigit || c == '-' || c == 'I' || c == 'N')
      && text.all numberChar && text.any (fun d => !intChar d)

/-- A float, as the text its `repr` prints. -/
@[ext]
structure FloatText where
  text : List Char
  ok : isFloatText text = true
deriving DecidableEq

/-- A JSON value.  Object members are kept in the order they were inserted. -/
inductive Json where
  | null
  | bool (b : Bool)
  | int (i : Int)
  | float (x : FloatText)
  | str (s : String)
  | arr (xs : List Json)
  | obj (fields : List (String × Json))

/-! ## Printing -/

/-- The lower-case hexadecimal digit of `n < 16`. -/
def hexDigit (n : Nat) : Char := if n < 10 then Char.ofNat (48 + n) else Char.ofNat (87 + n)

/-- Four hexadecimal digits. -/
def hex4 (n : Nat) : List Char :=
  [hexDigit (n / 4096 % 16), hexDigit (n / 256 % 16), hexDigit (n / 16 % 16), hexDigit (n % 16)]

/-- One character of a string as `ensure_ascii` writes it; a character beyond the basic plane is a
    pair of surrogate escapes. -/
def escapeChar (c : Char) : List Char :=
  if c = '"' then ['\\', '"']
  else if c = '\\' then ['\\', '\\']
  else if c = '\n' then ['\\', 'n']
  else if c = '\r' then ['\\', 'r']
  else if c = '\t' then ['\\', 't']
  else if c.toNat = 12 then ['\\', 'f']
  else if c.toNat = 8 then ['\\', 'b']
  else if 32 ≤ c.toNat ∧ c.toNat ≤ 126 then [c]
  else if c.toNat < 65536 then '\\' :: 'u' :: hex4 c.toNat
  else '\\' :: 'u' :: (hex4 (55296 + (c.toNat - 65536) / 1024)
      ++ '\\' :: 'u' :: hex4 (56320 + (c.toNat - 65536) % 1024))

/-- A quoted string. -/
def dumpStr (s : String) : List Char := '"' :: (s.toList.flatMap escapeChar ++ ['"'])

mutual

/-- The text of a value, members in the order given. -/
def dump : Json → List Char
  | .null => ['n', 'u', 'l', 'l']
  | .bool true => ['t', 'r', 'u', 'e']
  | .bool false => ['f', 'a', 'l', 's', 'e']
  | .int i => i.repr.toList
  | .float x => x.text
  | .str s => dumpStr s
  | .arr [] => ['[', ']']
  | .arr (x :: xs) => '[' :: (dump x ++ dumpItems xs)
  | .obj [] => ['{', '}']
  | .obj ((k, v) :: fields) => '{' :: (dumpStr k ++ ':' :: (dump v ++ dumpFields fields))

/-- The items after the first one, and the closing bracket. -/
def dumpItems : List Json → List Char
  | [] => [']']
  | x :: xs => ',' :: (dump x ++ dumpItems xs)

/-- The members after the first one, and the closing brace. -/
def dumpFields : List (String × Json) → List Char
  | [] => ['}']
  | (k, v) :: fields => ',' :: (dumpStr k ++ ':' :: (dump v ++ dumpFields fields))

end

/-- Object members in key order. -/
def sortFields (fields : List (String × Json)) : List (String × Json) :=
  fields.insertionSort (fun a b => a.1 ≤ b.1)

mutual

/-- `sort_keys=True`: the members of every object in key order. -/
def sortKeys : Json → Json
  | .null => .null
  | .bool b => .bool b
  | .int i => .int i
  | .float x => .float x
  | .str s => .str s
  | .arr xs => .arr (sortKeysItems xs)
  | .obj fields => .obj (sortFields (sortKeysFields fields))

def sortKeysItems : List Json → List Json
  | [] => []
  | x :: xs => sortKeys x :: sortKeysItems xs

def sortKeysFields : List (String × Json) → List (String × Json)
  | [] => []
  | (k, v) :: fields => (k, sortKeys v) :: sortKeysFields fields

end

/-- The characters of the canonical text.  They are ASCII, so there are as many bytes as
    characters in its encoding. -/
def canonicalChars (v : Json) : List Char := dump (sortKeys v)

/-- **The canonical text** of a value. -/
def canonicalJson (v : Json) : String := String.ofList (canonicalChars v)

/-- Equal as JSON values: the order of object members does not count. -/
def Json.Same (a b : Json) : Prop := sortKeys a = sortKeys b

theorem Json.Same.refl (a : Json) : a.Same a := rfl

/-! ## Escapes decode one at a time -/

/-- The value of a hexadecimal digit. -/
def hexVal (c : Char) : Nat := if c.toNat < 58 then c.toNat - 48 else c.toNat - 87

theorem hexVal_hexDigit : ∀ n, n < 16 → hexVal (hexDigit n) = n := by decide

/-- Read four hexadecimal digits. -/
def readHex4 : List Char → Option (Nat × List Char)
  | a :: b :: c :: d :: rest =>
    some (hexVal a * 4096 + hexVal b * 256 + hexVal c * 16 + hexVal d, rest)
  | _ => none

theorem readHex4_hex4 {n : Nat} (hn : n < 65536) (rest : List Char) :
    readHex4 (hex4 n ++ rest) = some (n, rest) := by
  have h1 := hexVal_hexDigit (n / 4096 % 16) (by omega)
  have h2 := hexVal_hexDigit (n / 256 % 16) (by omega)
  have h3 := hexVal_hexDigit (n / 16 % 16) (by omega)
  have h4 := hexVal_hexDigit (n % 16) (by omega)
  simp only [hex4, List.cons_append, List.nil_append, readHex4, h1, h2, h3, h4,
    Option.some.injEq, Prod.mk.injEq, and_true]
  omega

/-- Read one escaped character off the front of a text. -/
def unescape : List Char → Option (Char × List Char)
  | '\\' :: '"' :: rest => some ('"', rest)
  | '\\' :: '\\' :: rest => some ('\\', rest)
  | '\\' :: 'n' :: rest => some ('\n', rest)
  | '\\' :: 'r' :: rest => some ('\r', rest)
  | '\\' :: 't' :: rest => some ('\t', rest)
  | '\\' :: 'f' :: rest => some (Char.ofNat 12, rest)
  | '\\' :: 'b' :: rest => some (Char.ofNat 8, rest)
  | '\\' :: 'u' :: rest =>
    match readHex4 rest with
    | none => none
    | some (n, rest') =>
      if n < 55296 ∨ 57343 < n then some (Char.ofNat n, rest')
      else match rest' with
        | _ :: _ :: low =>
          match readHex4 low with
          | none => none
          | some (m, rest'') =>
            some (Char.ofNat (65536 + (n - 55296) * 1024 + (m - 56320)), rest'')
        | _ => none
  | c :: rest => some (c, rest)
  | [] => none

theorem charOfNat_of_toNat {c : Char} {n : Nat} (h : c.toNat = n) : Char.ofNat n = c := by
  rw [← h]; exact Char.ofNat_toNat c

/-- A character is never a surrogate. -/
theorem char_not_surrogate (c : Char) : c.toNat < 55296 ∨ 57343 < c.toNat ∧ c.toNat < 1114112 := by
  rcases c.valid with h | h
  · exact Or.inl h
  · exact Or.inr h

/-- The decoder undoes the escape of one character and leaves the rest of the text alone. -/
theorem unescape_escapeChar (c : Char) (rest : List Char) :
    unescape (escapeChar c ++ rest) = some (c, rest) := by
  have hsur := char_not_surrogate c
  unfold escapeChar
  split
  · subst_vars; rfl
  split
  · subst_vars; rfl
  split
  · subst_vars; rfl
  split
  · subst_vars; rfl
  split
  · subst_vars; rfl
  split
  · rename_i h
    rw [← charOfNat_of_toNat h]; rfl
  split
  · rename_i h
    rw [← charOfNat_of_toNat h]; rfl
  split
  · -- a printable character stands for itself; it is not the backslash
    rename_i hne _ _ _ _ _ _
    simp only [List.cons_append, List.nil_append]
    rw [unescape.eq_def]
    split <;> simp_all
  split
  · rename_i h
    have hread := readHex4_hex4 h rest
    simp only [List.cons_append, unescape, hread]
    rw [if_pos (by omega), Char.ofNat_toNat]
  · rename_i h
    have hhi := readHex4_hex4 (n := 55296 + (c.toNat - 65536) / 1024) (by omega)
      ('\\' :: 'u' :: hex4 (56320 + (c.toNat - 65536) % 1024) ++ rest)
    have hlo := readHex4_hex4 (n := 56320 + (c.toNat - 65536) % 1024) (by omega) rest
    simp only [List.cons_append, List.append_assoc, unescape] at hhi hlo ⊢
    rw [hhi]
    simp only [if_neg (show ¬(55296 + (c.toNat - 65536) / 1024 < 55296 ∨
      57343 < 55296 + (c.toNat - 65536) / 1024) by omega), hlo, Option.some.injEq, Prod.mk.injEq,
      and_true]
    exact charOfNat_of_toNat (by omega)

theorem escapeChar_unique {c d : Char} {u v : List Char}
    (h : escapeChar c ++ u = escapeChar d ++ v) : c = d ∧ u = v := by
  have hdec := congrArg unescape h
  rw [unescape_escapeChar, unescape_escapeChar] at hdec
  simpa using hdec

/-- No escape begins with the closing quote. -/
theorem escapeChar_ne_quote (c : Char) (u v : List Char) : escapeChar c ++ u ≠ '"' :: v := by
  intro h
  have hdec := congrArg unescape h
  rw [unescape_escapeChar, show unescape ('"' :: v) = some ('"', v) from rfl] at hdec
  obtain ⟨rfl, rfl⟩ : c = '"' ∧ u = v := by simpa using hdec
  simp [escapeChar] at h

/-- A quoted text determines the string and where it ends. -/
theorem escaped_unique : ∀ (cs ds : List Char) (u v : List Char),
    cs.flatMap escapeChar ++ '"' :: u = ds.flatMap escapeChar ++ '"' :: v → cs = ds ∧ u = v
  | [], [], u, v, h => by simpa using h
  | [], d :: ds, u, v, h => by
      simp only [List.flatMap_nil, List.nil_append, List.flatMap_cons, List.append_assoc] at h
      exact absurd h.symm (escapeChar_ne_quote d _ _)
  | c :: cs, [], u, v, h => by
      simp only [List.flatMap_nil, List.nil_append, List.flatMap_cons, List.append_assoc] at h
      exact absurd h (escapeChar_ne_quote c _ _)
  | c :: cs, d :: ds, u, v, h => by
      simp only [List.flatMap_cons, List.append_assoc] at h
      obtain ⟨hcd, h'⟩ := escapeChar_unique h
      obtain ⟨hcs, huv⟩ := escaped_unique cs ds u v h'
      exact ⟨by rw [hcd, hcs], huv⟩

theorem dumpStr_unique {s t : String} {u v : List Char}
    (h : dumpStr s ++ u = dumpStr t ++ v) : s = t ∧ u = v := by
  simp only [dumpStr, List.cons_append, List.append_assoc, List.cons.injEq, true_and,
    List.nil_append] at h
  obtain ⟨hst, huv⟩ := escaped_unique _ _ _ _ h
  exact ⟨String.toList_inj.mp hst, huv⟩

/-! ## Numbers are blocks of number characters -/

/-- What may follow a value: nothing, or the punctuation that closes or continues its container. -/
def Stop (u : List Char) : Prop := ∀ c rest, u = c :: rest → c = ',' ∨ c = ']' ∨ c = '}'

theorem stop_nil : Stop [] := by intro c rest h; cases h

theorem Stop.not_numberChar {u : List Char} (hu : Stop u) :
    ∀ c rest, u = c :: rest → numberChar c = false := by
  intro c rest h
  rcases hu c rest h with rfl | rfl | rfl <;> decide

/-- A block of `p`-characters before a non-`p` character (or the end) is determined. -/
theorem block_unique {p : Char → Bool} : ∀ (a b u v : List Char),
    (∀ c ∈ a, p c = true) → (∀ c ∈ b, p c = true) →
    (∀ c rest, u = c :: rest → p c = false) → (∀ c rest, v = c :: rest → p c = false) →
    a ++ u = b ++ v → a = b ∧ u = v
  | [], [], u, v, _, _, _, _, h => ⟨rfl, h⟩
  | [], d :: b, u, v, _, hb, hu, _, h => by
      have h1 := hu d (b ++ v) h
      rw [hb d List.mem_cons_self] at h1
      exact absurd h1 (by decide)
  | c :: a, [], u, v, ha, _, _, hv, h => by
      have h1 := hv c (a ++ u) h.symm
      rw [ha c List.mem_cons_self] at h1
      exact absurd h1 (by decide)
  | c :: a, d :: b, u, v, ha, hb, hu, hv, h => by
      simp only [List.cons_append, List.cons.injEq] at h
      obtain ⟨rfl, h'⟩ := h
      obtain ⟨rfl, huv⟩ := block_unique a b u v (fun x hx => ha x (List.mem_cons_of_mem _ hx))
        (fun x hx => hb x (List.mem_cons_of_mem _ hx)) hu hv h'
      exact ⟨rfl, huv⟩

theorem natRepr_isDigit {n : Nat} {c : Char} (hc : c ∈ n.repr.toList) : c.isDigit = true := by
  rw [Nat.toList_repr] at hc
  exact Nat.isDigit_of_mem_toDigits (by decide) (by decide) hc

theorem natRepr_ne_nil (n : Nat) : n.repr.toList ≠ [] := by
  rw [Nat.toList_repr]; exact Nat.toDigits_ne_nil

theorem intRepr_intChar {i : Int} {c : Char} (hc : c ∈ i.repr.toList) : intChar c = true := by
  cases i with
  | ofNat n => simp only [intChar, natRepr_isDigit (n := n) hc, Bool.true_or]
  | negSucc n =>
    rw [show (Int.negSucc n).repr = "-" ++ n.succ.repr from rfl, String.toList_append] at hc
    rcases List.mem_append.mp hc with h | h
    · rw [show "-".toList = ['-'] from rfl, List.mem_singleton] at h
      subst h; decide
    · simp only [intChar, natRepr_isDigit h, Bool.true_or]

theorem numberChar_of_intChar {c : Char} (h : intChar c = true) : numberChar c = true := by
  simp only [intChar, Bool.or_eq_true, beq_iff_eq] at h
  rcases h with h | h
  · simp only [numberChar, h, Bool.true_or]
  · subst h; decide

theorem intRepr_numberChar (i : Int) : ∀ c ∈ i.repr.toList, numberChar c = true :=
  fun _ hc => numberChar_of_intChar (intRepr_intChar hc)

theorem intRepr_ne_nil (i : Int) : i.repr.toList ≠ [] := by
  cases i with
  | ofNat n => exact natRepr_ne_nil n
  | negSucc n =>
    rw [show (Int.negSucc n).repr = "-" ++ n.succ.repr from rfl, String.toList_append]
    simp

theorem FloatText.head (x : FloatText) : ∃ c cs, x.text = c :: cs ∧
    (c.isDigit = true ∨ c = '-' ∨ c = 'I' ∨ c = 'N') := by
  have hok := x.ok
  cases htext : x.text with
  | nil => rw [htext] at hok; exact absurd hok (by decide)
  | cons c cs =>
    rw [htext] at hok
    simp only [isFloatText, Bool.and_eq_true, Bool.or_eq_true, beq_iff_eq, or_assoc] at hok
    exact ⟨c, cs, rfl, hok.1.1⟩

theorem FloatText.numberChar (x : FloatText) : ∀ c ∈ x.text, Aegis.numberChar c = true := by
  obtain ⟨c, cs, htext, -⟩ := x.head
  have hok := x.ok
  simp only [htext, isFloatText, Bool.and_eq_true] at hok
  rw [htext]
  exact List.all_eq_true.mp hok.1.2

theorem FloatText.not_int (x : FloatText) : ∃ c ∈ x.text, intChar c = false := by
  obtain ⟨c, cs, htext, -⟩ := x.head
  have hok := x.ok
  simp only [htext, isFloatText, Bool.and_eq_true] at hok
  obtain ⟨d, hd, hdi⟩ := List.any_eq_true.mp hok.2
  exact ⟨d, by rw [htext]; exact hd, by simpa using hdi⟩

/-! ## The first character tells the kind of value -/

/-- The kind of value a first character announces; `7` is no value at all. -/
def leadKind (c : Char) : Nat :=
  if c = '"' then 1 else if c = '[' then 2 else if c = '{' then 3 else if c = 'n' then 4
  else if c = 't' ∨ c = 'f' then 5
  else if c.isDigit ∨ c = '-' ∨ c = 'I' ∨ c = 'N' then 6 else 7

/-- The kind of a value; integers and floats are both numbers. -/
def kind : Json → Nat
  | .str _ => 1
  | .arr _ => 2
  | .obj _ => 3
  | .null => 4
  | .bool _ => 5
  | .int _ => 6
  | .float _ => 6

theorem leadKind_number {c : Char} (h : c.isDigit = true ∨ c = '-' ∨ c = 'I' ∨ c = 'N') :
    leadKind c = 6 := by
  have hne : ∀ d : Char, (d.isDigit || d == '-' || d == 'I' || d == 'N') = false → c ≠ d := by
    rintro d hd rfl
    rcases h with h | rfl | rfl | rfl
    · rw [h] at hd; exact absurd hd (by simp)
    · exact absurd hd (by decide)
    · exact absurd hd (by decide)
    · exact absurd hd (by decide)
  unfold leadKind
  rw [if_neg (hne '"' (by decide)), if_neg (hne '[' (by decide)), if_neg (hne '{' (by decide)),
    if_neg (hne 'n' (by decide)),
    if_neg (not_or.mpr ⟨hne 't' (by decide), hne 'f' (by decide)⟩), if_pos h]

theorem dump_lead (a : Json) : ∃ c cs, dump a = c :: cs ∧ leadKind c = kind a := by
  cases a with
  | null => exact ⟨_, _, rfl, rfl⟩
  | bool b => cases b <;> exact ⟨_, _, by rw [dump], rfl⟩
  | int i =>
    cases htext : i.repr.toList with
    | nil => exact absurd htext (intRepr_ne_nil i)
    | cons c cs =>
      have hc : intChar c = true := intRepr_intChar (i := i) (by rw [htext]; simp)
      simp only [intChar, Bool.or_eq_true, beq_iff_eq] at hc
      refine ⟨c, cs, by rw [dump, htext], leadKind_number ?_⟩
      rcases hc with hc | hc
      · exact Or.inl hc
      · exact Or.inr (Or.inl hc)
  | float x =>
    obtain ⟨c, cs, htext, hc⟩ := x.head
    exact ⟨c, cs, by rw [dump, htext], leadKind_number hc⟩
  | str s => exact ⟨_, _, by rw [dump, dumpStr], rfl⟩
  | arr xs => cases xs <;> exact ⟨_, _, by rw [dump], rfl⟩
  | obj fields =>
    cases fields with
    | nil => exact ⟨_, _, by rw [dump], rfl⟩
    | cons f fields => obtain ⟨k, v⟩ := f; exact ⟨_, _, by rw [dump], rfl⟩

/-- No value begins with the closing bracket of an array. -/
theorem dump_ne_bracket (a : Json) (u v : List Char) : dump a ++ u ≠ ']' :: v := by
  intro h
  obtain ⟨c, cs, ha, hk⟩ := dump_lead a
  rw [ha, List.cons_append] at h
  rw [(List.cons.inj h).1] at hk
  cases a <;> simp [leadKind, kind] at hk

theorem kind_eq_of_dump {a b : Json} {u v : List Char} (h : dump a ++ u = dump b ++ v) :
    kind a = kind b := by
  obtain ⟨c, cs, ha, hka⟩ := dump_lead a
  obtain ⟨d, ds, hb, hkb⟩ := dump_lead b
  rw [ha, hb, List.cons_append, List.cons_append] at h
  obtain ⟨hcd, -⟩ := List.cons.inj h
  rw [← hka, ← hkb, hcd]

/-! ## A text determines the value it begins with -/

theorem dumpItems_stop (xs : List Json) (u : List Char) : Stop (dumpItems xs ++ u) := by
  intro c rest h
  cases xs with
  | nil =>
    rw [dumpItems, List.cons_append] at h
    exact Or.inr (Or.inl (List.cons.inj h).1.symm)
  | cons x xs =>
    rw [dumpItems, List.cons_append] at h
    exact Or.inl (List.cons.inj h).1.symm

theorem dumpFields_stop (fields : List (String × Json)) (u : List Char) :
    Stop (dumpFields fields ++ u) := by
  intro c rest h
  cases fields with
  | nil =>
    rw [dumpFields, List.cons_append] at h
    exact Or.inr (Or.inr (List.cons.inj h).1.symm)
  | cons f fields =>
    obtain ⟨k, v⟩ := f
    rw [dumpFields, List.cons_append] at h
    exact Or.inl (List.cons.inj h).1.symm

/-- Two texts of numbers that begin the same way are the same number. -/
theorem dump_number_unique {s t u v : List Char} (hs : ∀ c ∈ s, numberChar c = true)
    (ht : ∀ c ∈ t, numberChar c = true) (hu : Stop u) (hv : Stop v) (h : s ++ u = t ++ v) :
    s = t ∧ u = v :=
  block_unique s t u v hs ht hu.not_numberChar hv.not_numberChar h

theorem intRepr_ne_float (i : Int) (x : FloatText) : i.repr.toList ≠ x.text := by
  intro h
  obtain ⟨c, hc, hci⟩ := x.not_int
  rw [← h] at hc
  rw [intRepr_intChar hc] at hci
  exact absurd hci (by decide)

mutual

/-- **A text determines the value it begins with** and the text that follows it.  Induction on the
    first value, by the recursion of the printer; `kind_eq_of_dump` leaves only pairs of values of
    one kind. -/
theorem dump_unique : ∀ (a b : Json) (u v : List Char), Stop u → Stop v →
    dump a ++ u = dump b ++ v → a = b ∧ u = v
  | .null, b, u, v, hu, hv, h => by
      have hk := kind_eq_of_dump h
      cases b with
      | null => exact ⟨rfl, List.append_cancel_left h⟩
      | _ => simp [kind] at hk
  | .bool a, b, u, v, hu, hv, h => by
      have hk := kind_eq_of_dump h
      cases b with
      | bool b => cases a <;> cases b <;> simp [dump] at h ⊢ <;> exact h
      | _ => simp [kind] at hk
  | .int i, b, u, v, hu, hv, h => by
      have hk := kind_eq_of_dump h
      cases b with
      | int j =>
        obtain ⟨htext, huv⟩ := dump_number_unique (intRepr_numberChar i) (intRepr_numberChar j) hu hv h
        exact ⟨by rw [Int.repr_injective (String.toList_inj.mp htext)], huv⟩
      | float x =>
        have hx := (dump_number_unique (intRepr_numberChar i) x.numberChar hu hv h).1
        exact absurd hx (intRepr_ne_float i x)
      | _ => simp [kind] at hk
  | .float x, b, u, v, hu, hv, h => by
      have hk := kind_eq_of_dump h
      cases b with
      | int j =>
        have hx := (dump_number_unique x.numberChar (intRepr_numberChar j) hu hv h).1
        exact absurd hx.symm (intRepr_ne_float j x)
      | float y =>
        obtain ⟨htext, huv⟩ := dump_number_unique x.numberChar y.numberChar hu hv h
        exact ⟨by rw [FloatText.ext htext], huv⟩
      | _ => simp [kind] at hk
  | .str s, b, u, v, hu, hv, h => by
      have hk := kind_eq_of_dump h
      cases b with
      | str t =>
        rw [dump, dump] at h
        obtain ⟨rfl, huv⟩ := dumpStr_unique h
        exact ⟨rfl, huv⟩
      | _ => simp [kind] at hk
  | .arr xs, b, u, v, hu, hv, h => by
      have hk := kind_eq_of_dump h
      cases b with
      | arr ys =>
        obtain ⟨rfl, huv⟩ := dumpArr_unique xs ys u v h
        exact ⟨rfl, huv⟩
      | _ => simp [kind] at hk
  | .obj fs, b, u, v, hu, hv, h => by
      have hk := kind_eq_of_dump h
      cases b with
      | obj gs =>
        obtain ⟨rfl, huv⟩ := dumpObj_unique fs gs u v h
        exact ⟨rfl, huv⟩
      | _ => simp [kind] at hk

theorem dumpArr_unique : ∀ (xs ys : List Json) (u v : List Char),
    dump (.arr xs) ++ u = dump (.arr ys) ++ v → xs = ys ∧ u = v
  | [], [], u, v, h => ⟨rfl, List.append_cancel_left h⟩
  | [], y :: ys, u, v, h => by
      simp only [dump, List.cons_append, List.cons.injEq, true_and, List.append_assoc] at h
      exact absurd h.symm (dump_ne_bracket y _ _)
  | x :: xs, [], u, v, h => by
      simp only [dump, List.cons_append, List.cons.injEq, true_and, List.append_assoc] at h
      exact absurd h (dump_ne_bracket x _ _)
  | x :: xs, y :: ys, u, v, h => by
      simp only [dump, List.cons_append, List.append_assoc, List.cons.injEq, true_and] at h
      obtain ⟨rfl, h'⟩ := dump_unique x y _ _ (dumpItems_stop xs u) (dumpItems_stop ys v) h
      obtain ⟨rfl, huv⟩ := dumpItems_unique xs ys u v h'
      exact ⟨rfl, huv⟩

theorem dumpItems_unique : ∀ (xs ys : List Json) (u v : List Char),
    dumpItems xs ++ u = dumpItems ys ++ v → xs = ys ∧ u = v
  | [], [], u, v, h => ⟨rfl, List.append_cancel_left h⟩
  | [], y :: ys, u, v, h => by simp [dumpItems] at h
  | x :: xs, [], u, v, h => by simp [dumpItems] at h
  | x :: xs, y :: ys, u, v, h => by
      simp only [dumpItems, List.cons_append, List.append_assoc, List.cons.injEq, true_and] at h
      obtain ⟨rfl, h'⟩ := dump_unique x y _ _ (dumpItems_stop xs u) (dumpItems_stop ys v) h
      obtain ⟨rfl, huv⟩ := dumpItems_unique xs ys u v h'
      exact ⟨rfl, huv⟩

theorem dumpObj_unique : ∀ (fs gs : List (String × Json)) (u v : List Char),
    dump (.obj fs) ++ u = dump (.obj gs) ++ v → fs = gs ∧ u = v
  | [], [], u, v, h => ⟨rfl, List.append_cancel_left h⟩
  | [], (l, y) :: gs, u, v, h => by simp [dump, dumpStr] at h
  | (k, x) :: fs, [], u, v, h => by simp [dump, dumpStr] at h
  | (k, x) :: fs, (l, y) :: gs, u, v, h => by
      simp only [dump, List.cons_append, List.append_assoc, List.cons.injEq, true_and] at h
      obtain ⟨rfl, h'⟩ := dumpStr_unique h
      simp only [List.cons.injEq, true_and] at h'
      obtain ⟨rfl, h''⟩ := dump_unique x y _ _ (dumpFields_stop fs u) (dumpFields_stop gs v) h'
      obtain ⟨rfl, huv⟩ := dumpFields_unique fs gs u v h''
      exact ⟨rfl, huv⟩

theorem dumpFields_unique : ∀ (fs gs : List (String × Json)) (u v : List Char),
    dumpFields fs ++ u = dumpFields gs ++ v → fs = gs ∧ u = v
  | [], [], u, v, h => ⟨rfl, List.append_cancel_left h⟩
  | [], (l, y) :: gs, u, v, h => by simp [dumpFields] at h
  | (k, x) :: fs, [], u, v, h => by simp [dumpFields] at h
  | (k, x) :: fs, (l, y) :: gs, u, v, h => by
      simp only [dumpFields, List.cons_append, List.append_assoc, List.cons.injEq, true_and] at h
      obtain ⟨rfl, h'⟩ := dumpStr_unique h
      simp only [List.cons.injEq, true_and] at h'
      obtain ⟨rfl, h''⟩ := dump_unique x y _ _ (dumpFields_stop fs u) (dumpFields_stop gs v) h'
      obtain ⟨rfl, huv⟩ := dumpFields_unique fs gs u v h''
      exact ⟨rfl, huv⟩

end

/-- **The canonical text determines the value**, up to the order of object members. -/
theorem canonicalJson_inj {a b : Json} : canonicalJson a = canonicalJson b ↔ a.Same b := by
  constructor
  · intro h
    have h' : dump (sortKeys a) = dump (sortKeys b) := String.ofList_inj.mp h
    exact (dump_unique _ _ [] [] stop_nil stop_nil (by rw [h'])).1
  · intro h
    rw [canonicalJson, canonicalJson, canonicalChars, canonicalChars, h]

/-! ## The length of a text -/

/-- The length of an object, member by member: quotes are in the keys, and every member has a colon
    and a comma or the closing brace. -/
def fieldsWidth (fields : List (String × Json)) : Nat :=
  (fields.map fun f => (dumpStr f.1).length + (dump f.2).length + 2).sum

theorem length_dumpFields (fields : List (String × Json)) :
    (dumpFields fields).length = fieldsWidth fields + 1 := by
  induction fields with
  | nil => rfl
  | cons f fields ih =>
    obtain ⟨k, v⟩ := f
    simp only [dumpFields, fieldsWidth, List.length_cons, List.length_append, List.map_cons,
      List.sum_cons] at ih ⊢
    omega

theorem length_dump_obj {fields : List (String × Json)} (h : fields ≠ []) :
    (dump (.obj fields)).length = fieldsWidth fields + 1 := by
  cases fields with
  | nil => exact absurd rfl h
  | cons f fields =>
    obtain ⟨k, v⟩ := f
    have hrest := length_dumpFields fields
    simp only [dump, fieldsWidth, List.length_cons, List.length_append, List.map_cons,
      List.sum_cons] at hrest ⊢
    omega

theorem length_dump_arr_cons (x : Json) (xs : List Json) :
    (dump (.arr (x :: xs))).length = (dump x).length + (dumpItems xs).length + 1 := by
  simp only [dump, List.length_cons, List.length_append]

mutual

/-- **Sorting the keys does not change the length of the text.** -/
theorem length_dump_sortKeys : ∀ v : Json, (dump (sortKeys v)).length = (dump v).length
  | .null | .bool _ | .int _ | .float _ | .str _ => by rw [sortKeys]
  | .arr [] => by rw [sortKeys, sortKeysItems]
  | .arr (x :: xs) => by
    rw [sortKeys, sortKeysItems, length_dump_arr_cons, length_dump_arr_cons,
      length_dump_sortKeys x, length_dumpItems_sortKeys xs]
  | .obj [] => by rw [sortKeys, sortKeysFields]; rfl
  | .obj ((k, v) :: fields) => by
    have hperm : (sortFields (sortKeysFields ((k, v) :: fields))).Perm
        (sortKeysFields ((k, v) :: fields)) := List.perm_insertionSort _ _
    have hne : sortFields (sortKeysFields ((k, v) :: fields)) ≠ [] := by
      intro h
      rw [h] at hperm
      exact absurd hperm.length_eq (by simp [sortKeysFields])
    have hv := length_dump_sortKeys v
    have hfields := fieldsWidth_sortKeys fields
    rw [sortKeys, length_dump_obj hne, length_dump_obj (by simp), fieldsWidth,
      (hperm.map _).sum_eq, sortKeysFields]
    simp only [fieldsWidth, List.map_cons, List.sum_cons] at hfields ⊢
    omega

theorem length_dumpItems_sortKeys : ∀ xs : List Json,
    (dumpItems (sortKeysItems xs)).length = (dumpItems xs).length
  | [] => by rw [sortKeysItems]
  | x :: xs => by
    have hx := length_dump_sortKeys x
    have hxs := length_dumpItems_sortKeys xs
    simp only [sortKeysItems, dumpItems, List.length_cons, List.length_append]
    omega

theorem fieldsWidth_sortKeys : ∀ fields : List (String × Json),
    fieldsWidth (sortKeysFields fields) = fieldsWidth fields
  | [] => by rw [sortKeysFields]
  | (k, v) :: fields => by
    have hv := length_dump_sortKeys v
    have hfields := fieldsWidth_sortKeys fields
    simp only [sortKeysFields, fieldsWidth, List.map_cons, List.sum_cons] at hfields ⊢
    omega

end

theorem length_canonicalChars (v : Json) : (canonicalChars v).length = (dump v).length :=
  length_dump_sortKeys v

/-! ## The members of an object -/

theorem sortKeysFields_eq_map (fields : List (String × Json)) :
    sortKeysFields fields = fields.map fun f => (f.1, sortKeys f.2) := by
  induction fields with
  | nil => rfl
  | cons f fields ih => obtain ⟨k, v⟩ := f; rw [sortKeysFields, ih]; rfl

theorem sortKeysFields_keys (fields : List (String × Json)) :
    (sortKeysFields fields).map Prod.fst = fields.map Prod.fst := by
  rw [sortKeysFields_eq_map, List.map_map]; rfl

/-- An object whose keys already are in order is only sorted inside its values. -/
theorem sortKeys_obj {fields : List (String × Json)}
    (h : (fields.map Prod.fst).Pairwise (· ≤ ·)) :
    sortKeys (.obj fields) = .obj (sortKeysFields fields) := by
  rw [sortKeys, sortFields, List.Pairwise.insertionSort_eq]
  rw [← sortKeysFields_keys] at h
  exact List.pairwise_map.mp h

/-- **The order of distinct members does not count.** -/
theorem Json.same_of_perm {fs gs : List (String × Json)} (hperm : fs.Perm gs)
    (hnodup : (fs.map Prod.fst).Nodup) : (Json.obj fs).Same (.obj gs) := by
  have htotal : Std.Total (fun a b : String × Json => a.1 ≤ b.1) := ⟨fun a b => le_total a.1 b.1⟩
  have htrans : IsTrans (String × Json) (fun a b => a.1 ≤ b.1) := ⟨fun _ _ _ => le_trans⟩
  have hperm' : (sortKeysFields fs).Perm (sortKeysFields gs) := by
    rw [sortKeysFields_eq_map, sortKeysFields_eq_map]; exact hperm.map _
  rw [← sortKeysFields_keys] at hnodup
  have heq : sortFields (sortKeysFields fs) = sortFields (sortKeysFields gs) := by
    refine List.Perm.eq_of_pairwise ?_ (List.pairwise_insertionSort _ _)
      (List.pairwise_insertionSort _ _) ?_
    · intro a b ha hb hab hba
      have ha' := (List.mem_insertionSort _).mp ha
      have hb' := hperm'.mem_iff.mpr ((List.mem_insertionSort _).mp hb)
      exact List.inj_on_of_nodup_map hnodup ha' hb' (le_antisymm hab hba)
    · exact ((List.perm_insertionSort _ _).trans hperm').trans (List.perm_insertionSort _ _).symm
  show sortKeys (.obj fs) = sortKeys (.obj gs)
  rw [sortKeys, sortKeys, heq]

/-- **Equal objects have equal members.** -/
theorem Json.Same.field {fs gs : List (String × Json)} (h : (Json.obj fs).Same (.obj gs))
    (hnodup : (fs.map Prod.fst).Nodup) {k : String} {v w : Json} (hv : (k, v) ∈ fs)
    (hw : (k, w) ∈ gs) : v.Same w := by
  have heq : sortFields (sortKeysFields fs) = sortFields (sortKeysFields gs) := by
    have hsorted : sortKeys (.obj fs) = sortKeys (.obj gs) := h
    rw [sortKeys, sortKeys] at hsorted
    exact Json.obj.inj hsorted
  have hmem : ∀ {xs : List (String × Json)} {x : Json}, (k, x) ∈ xs →
      (k, sortKeys x) ∈ sortKeysFields xs := by
    intro xs x hx
    rw [sortKeysFields_eq_map]
    exact List.mem_map.mpr ⟨(k, x), hx, rfl⟩
  have hw' : (k, sortKeys w) ∈ sortKeysFields fs := by
    have hsorted : (k, sortKeys w) ∈ sortFields (sortKeysFields gs) :=
      (List.mem_insertionSort _).mpr (hmem hw)
    rw [← heq] at hsorted
    exact (List.mem_insertionSort _).mp hsorted
  rw [← sortKeysFields_keys] at hnodup
  have hpair : (k, sortKeys v) = (k, sortKeys w) :=
    List.inj_on_of_nodup_map hnodup (hmem hv) hw' rfl
  exact (Prod.mk.inj hpair).2

/-- Equal objects have equal numbers. -/
theorem Json.Same.nat_field {fs gs : List (String × Json)} (h : (Json.obj fs).Same (.obj gs))
    (hnodup : (fs.map Prod.fst).Nodup) (k : String) {a b : Nat} (ha : (k, Json.int a) ∈ fs)
    (hb : (k, Json.int b) ∈ gs) : a = b := by
  have hsame : sortKeys (.int a) = sortKeys (.int b) := h.field hnodup ha hb
  rw [sortKeys, sortKeys, Json.int.injEq] at hsame
  exact Int.ofNat.inj hsame

theorem Json.same_str {a b : String} : (Json.str a).Same (.str b) ↔ a = b := by
  show sortKeys (.str a) = sortKeys (.str b) ↔ a = b
  rw [sortKeys, sortKeys, Json.str.injEq]

/-- A list of texts is determined, item by item. -/
theorem Json.same_strs {as bs : List String} :
    (Json.arr (as.map .str)).Same (.arr (bs.map .str)) ↔ as = bs := by
  have hitems : ∀ xs : List String, sortKeysItems (xs.map .str) = xs.map Json.str := by
    intro xs
    induction xs with
    | nil => rfl
    | cons x xs ih => rw [List.map_cons, sortKeysItems, sortKeys, ih]
  show sortKeys (.arr (as.map .str)) = sortKeys (.arr (bs.map .str)) ↔ as = bs
  rw [sortKeys, sortKeys, hitems, hitems, Json.arr.injEq]
  exact List.map_inj_right (fun _ _ h => Json.str.inj h)

end Aegis
