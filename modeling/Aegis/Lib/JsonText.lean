/-
  READING JSON, as `json.loads` reads bytes.

  Three stages, none of which can run out of anything: the bytes are decoded, in the encoding that their
  zeros give away; a machine walks over the text one code point at a time (`step`), with the containers that
  are still open on a stack; and at the end one value has to be complete (`finish`).

  A Python string may hold surrogates, so a text is a list of code points and not of characters.  Of a float
  the text is kept.

  The machine reads a plain string and a number in one go (`run_string`, `run_number`), which is what a
  reader of a document with a known shape needs.
-/
import Mathlib

namespace Aegis

namespace JsonText

/-- Code points, surrogates among them. -/
abbrev Text : Type := List Nat

/-- The code points of a string. -/
def codes (s : String) : Text := s.toList.map Char.toNat

/-! ## Bytes -/

/-- What a continuation byte adds. -/
def tailBits (b : UInt8) : Option Nat :=
  if 128 ≤ b.toNat ∧ b.toNat < 192 then some (b.toNat - 128) else none

/-- `utf-8` with `surrogatepass`. -/
def utf8 : List UInt8 → Option Text
  | [] => some []
  | a :: rest =>
    if a.toNat < 0x80 then (utf8 rest).map (a.toNat :: ·)
    else if a.toNat < 0xc2 then none
    else if a.toNat < 0xe0 then
      match rest with
      | b :: rest => do
        let n := (a.toNat - 0xc0) * 64 + (← tailBits b)
        (utf8 rest).map (n :: ·)
      | _ => none
    else if a.toNat < 0xf0 then
      match rest with
      | b :: c :: rest => do
        let n := (a.toNat - 0xe0) * 4096 + (← tailBits b) * 64 + (← tailBits c)
        if n < 0x800 then none else (utf8 rest).map (n :: ·)
      | _ => none
    else if a.toNat < 0xf5 then
      match rest with
      | b :: c :: d :: rest => do
        let n := (a.toNat - 0xf0) * 262144 + (← tailBits b) * 4096 + (← tailBits c) * 64 + (← tailBits d)
        if n < 0x10000 ∨ 0x10ffff < n then none else (utf8 rest).map (n :: ·)
      | _ => none
    else none

def highSurrogate (n : Nat) : Bool := decide (0xd800 ≤ n ∧ n < 0xdc00)

def lowSurrogate (n : Nat) : Bool := decide (0xdc00 ≤ n ∧ n < 0xe000)

def joinPair (high low : Nat) : Nat := 0x10000 + (high - 0xd800) * 1024 + (low - 0xdc00)

def joinUnits : Text → Text
  | [] => []
  | [n] => [n]
  | high :: low :: rest =>
    if highSurrogate high && lowSurrogate low then joinPair high low :: joinUnits rest
    else high :: joinUnits (low :: rest)

/-- `utf-16` with `surrogatepass`, before its pairs are joined. -/
def units (big : Bool) : List UInt8 → Option Text
  | [] => some []
  | [_] => none
  | a :: b :: rest =>
    (units big rest).map ((if big then a.toNat * 256 + b.toNat else b.toNat * 256 + a.toNat) :: ·)

def utf16 (big : Bool) (bytes : List UInt8) : Option Text := (units big bytes).map joinUnits

/-- `utf-32` with `surrogatepass`. -/
def utf32 (big : Bool) : List UInt8 → Option Text
  | [] => some []
  | a :: b :: c :: d :: rest =>
    let n := if big then ((a.toNat * 256 + b.toNat) * 256 + c.toNat) * 256 + d.toNat
      else ((d.toNat * 256 + c.toNat) * 256 + b.toNat) * 256 + a.toNat
    if 0x10ffff < n then none else (utf32 big rest).map (n :: ·)
  | _ => none

/-- `bytes.decode(detect_encoding(bytes), "surrogatepass")`. -/
def decodeText (bytes : List UInt8) : Option Text :=
  if [0, 0, 0xfe, 0xff].isPrefixOf bytes then utf32 true (bytes.drop 4)
  else if [0xff, 0xfe, 0, 0].isPrefixOf bytes then utf32 false (bytes.drop 4)
  else if [0xfe, 0xff].isPrefixOf bytes then utf16 true (bytes.drop 2)
  else if [0xff, 0xfe].isPrefixOf bytes then utf16 false (bytes.drop 2)
  else if [0xef, 0xbb, 0xbf].isPrefixOf bytes then utf8 (bytes.drop 3)
  else
    match bytes with
    | a :: b :: c :: d :: _ =>
      if a = 0 then (if b = 0 then utf32 true bytes else utf16 true bytes)
      else if b = 0 then (if c = 0 ∧ d = 0 then utf32 false bytes else utf16 false bytes)
      else utf8 bytes
    | [a, b] => if a = 0 then utf16 true bytes else if b = 0 then utf16 false bytes else utf8 bytes
    | _ => utf8 bytes

/-! ## Values -/

/-- What `loads` returns.  The members of an object stand as they were read. -/
inductive Value where
  | null
  | bool (b : Bool)
  | int (i : Int)
  | float (text : Text)
  | str (s : Text)
  | arr (items : List Value)
  | obj (members : List (Text × Value))

/-- `value.get(key)`: of members with one key the last. -/
def getMember (members : List (Text × Value)) (key : String) : Option Value :=
  (members.reverse.find? fun m => m.1 = codes key).map Prod.snd

/-! ## The machine -/

/-- An open container: what it holds so far, the last first. -/
inductive Frame where
  | items (before : List Value)
  | members (before : List (Text × Value)) (key : Text)

/-- What a string is read for: the key of a member, or a value. -/
inductive Role where
  | key (before : List (Text × Value))
  | value

/-- The part of a number that was read last. -/
inductive Part where
  | minus | zero | whole | point | fraction | e | sign | exponent
deriving DecidableEq

/-- A number may end here. -/
def Part.terminal : Part → Bool
  | .zero | .whole | .fraction | .exponent => true
  | .minus | .point | .e | .sign => false

inductive State where
  /-- A value is due, or the end of an array that has just begun. -/
  | value (stack : List Frame) (first : Bool)
  /-- A key is due, or the end of an object that has just begun. -/
  | key (stack : List Frame) (before : List (Text × Value)) (first : Bool)
  | colon (stack : List Frame) (before : List (Text × Value)) (key : Text)
  | done (stack : List Frame) (v : Value)
  /-- Inside a string; of each code point, whether it was written as `\u`. -/
  | string (stack : List Frame) (role : Role) (read : List (Nat × Bool))
  | escape (stack : List Frame) (role : Role) (read : List (Nat × Bool))
  | hex (stack : List Frame) (role : Role) (read : List (Nat × Bool)) (digits : Nat) (value : Nat)
  | number (stack : List Frame) (part : Part) (text : Text)
  | word (stack : List Frame) (left : Text) (v : Value)

def isSpace (c : Nat) : Bool := c == 32 || c == 9 || c == 10 || c == 13

def isDigit (c : Nat) : Bool := decide (48 ≤ c ∧ c ≤ 57)

def hexDigit (c : Nat) : Option Nat :=
  if 48 ≤ c ∧ c ≤ 57 then some (c - 48)
  else if 97 ≤ c ∧ c ≤ 102 then some (c - 87)
  else if 65 ≤ c ∧ c ≤ 70 then some (c - 55) else none

/-- Pairs of surrogates that were both written as `\u` are one code point. -/
def joinEscapes : List (Nat × Bool) → Text
  | [] => []
  | [c] => [c.1]
  | a :: b :: rest =>
    if a.2 && b.2 && highSurrogate a.1 && lowSurrogate b.1 then joinPair a.1 b.1 :: joinEscapes rest
    else a.1 :: joinEscapes (b :: rest)

def natOf (digits : Text) : Nat := digits.foldl (fun n c => 10 * n + (c - 48)) 0

/-- `int(text)`. -/
def intOf (text : Text) : Int :=
  match text with
  | 45 :: digits => -(natOf digits : Int)
  | _ => natOf text

/-- A number that ends: an integer, unless it has a fraction or an exponent. -/
def numberOf (part : Part) (text : Text) : Value :=
  match part with
  | .zero | .whole => .int (intOf text)
  | _ => .float text

def nan : Text := codes "NaN"

def infinity : Text := codes "Infinity"

def minusInfinity : Text := codes "-Infinity"

/-- The first code point of a value. -/
def begin (stack : List Frame) (c : Nat) : Option State :=
  if c = 34 then some (.string stack .value [])
  else if c = 123 then some (.key stack [] true)
  else if c = 91 then some (.value (.items [] :: stack) true)
  else if c = 110 then some (.word stack (codes "ull") .null)
  else if c = 116 then some (.word stack (codes "rue") (.bool true))
  else if c = 102 then some (.word stack (codes "alse") (.bool false))
  else if c = 78 then some (.word stack (codes "aN") (.float nan))
  else if c = 73 then some (.word stack (codes "nfinity") (.float infinity))
  else if c = 45 then some (.number stack .minus [c])
  else if c = 48 then some (.number stack .zero [c])
  else if isDigit c then some (.number stack .whole [c])
  else none

/-- What follows a complete value. -/
def after (stack : List Frame) (v : Value) (c : Nat) : Option State :=
  if isSpace c then some (.done stack v)
  else match stack with
    | [] => none
    | .items before :: stack =>
      if c = 44 then some (.value (.items (v :: before) :: stack) false)
      else if c = 93 then some (.done stack (.arr (v :: before).reverse))
      else none
    | .members before key :: stack =>
      if c = 44 then some (.key stack ((key, v) :: before) false)
      else if c = 125 then some (.done stack (.obj ((key, v) :: before).reverse))
      else none

/-- Where the machine goes in a number, and nothing where the number has ended. -/
def Part.next (part : Part) (c : Nat) : Option Part :=
  match part with
  | .minus => if c = 48 then some .zero else if isDigit c then some .whole else none
  | .zero => if c = 46 then some .point else if c = 101 ∨ c = 69 then some .e else none
  | .whole =>
    if isDigit c then some .whole
    else if c = 46 then some .point else if c = 101 ∨ c = 69 then some .e else none
  | .point => if isDigit c then some .fraction else none
  | .fraction => if isDigit c then some .fraction else if c = 101 ∨ c = 69 then some .e else none
  | .e => if c = 43 ∨ c = 45 then some .sign else if isDigit c then some .exponent else none
  | .sign => if isDigit c then some .exponent else none
  | .exponent => if isDigit c then some .exponent else none

/-- The closing quote of a string. -/
def close (stack : List Frame) (role : Role) (read : List (Nat × Bool)) : State :=
  match role with
  | .value => .done stack (.str (joinEscapes read.reverse))
  | .key before => .colon stack before (joinEscapes read.reverse)

/-- The code point that a letter after a backslash stands for. -/
def escaped (c : Nat) : Option Nat :=
  if c = 34 ∨ c = 92 ∨ c = 47 then some c
  else if c = 98 then some 8
  else if c = 102 then some 12
  else if c = 110 then some 10
  else if c = 114 then some 13
  else if c = 116 then some 9 else none

/-- One code point. -/
def step (s : State) (c : Nat) : Option State :=
  match s with
  | .value stack first =>
    if isSpace c then some s
    else if first = true ∧ c = 93 then
      match stack with
      | .items before :: stack => some (.done stack (.arr before.reverse))
      | _ => none
    else begin stack c
  | .key stack before first =>
    if isSpace c then some s
    else if first = true ∧ c = 125 then some (.done stack (.obj before.reverse))
    else if c = 34 then some (.string stack (.key before) [])
    else none
  | .colon stack before key =>
    if isSpace c then some s
    else if c = 58 then some (.value (.members before key :: stack) false) else none
  | .done stack v => after stack v c
  | .string stack role read =>
    if c = 34 then some (close stack role read)
    else if c = 92 then some (.escape stack role read)
    else if c < 32 then none
    else some (.string stack role ((c, false) :: read))
  | .escape stack role read =>
    if c = 117 then some (.hex stack role read 0 0)
    else (escaped c).map fun n => .string stack role ((n, false) :: read)
  | .hex stack role read digits value =>
    (hexDigit c).map fun d =>
      if digits = 3 then .string stack role ((value * 16 + d, true) :: read)
      else .hex stack role read (digits + 1) (value * 16 + d)
  | .number stack part text =>
    if part = .minus ∧ c = 73 then some (.word stack (codes "nfinity") (.float minusInfinity))
    else match part.next c with
      | some part => some (.number stack part (text ++ [c]))
      | none => if part.terminal then after stack (numberOf part text) c else none
  | .word stack left v =>
    match left with
    | [] => none
    | [d] => if c = d then some (.done stack v) else none
    | d :: left => if c = d then some (.word stack left v) else none

/-- Several code points. -/
def run (s : State) (text : Text) : Option State := text.foldlM step s

/-- The end of the text: one value, and nothing open. -/
def finish (s : State) : Option Value :=
  match s with
  | .done [] v => some v
  | .number [] part text => if part.terminal then some (numberOf part text) else none
  | _ => none

/-- `json.loads`. -/
def loads (bytes : List UInt8) : Option Value := do
  let text ← decodeText bytes
  let s ← run (.value [] false) text
  finish s

/-! ## ASCII -/

theorem utf8_ascii {a : UInt8} (h : a.toNat < 0x80) (rest : List UInt8) :
    utf8 (a :: rest) = (utf8 rest).map (a.toNat :: ·) := by
  rw [utf8.eq_def]
  exact if_pos h

/-- Bytes that begin an object are in `utf-8`. -/
theorem decodeText_object (c d : UInt8) (rest : List UInt8) :
    decodeText (123 :: 34 :: c :: d :: rest) = utf8 (123 :: 34 :: c :: d :: rest) := rfl

/-! ## Runs -/

@[simp] theorem run_nil (s : State) : run s [] = some s := rfl

theorem run_cons (s : State) (c : Nat) (text : Text) :
    run s (c :: text) = (step s c).bind fun s => run s text := rfl

theorem run_append (s : State) (a b : Text) : run s (a ++ b) = (run s a).bind fun s => run s b :=
  List.foldlM_append

/-- A run in two parts, of which the first is known. -/
theorem run_trans {s t : State} {a : Text} (h : run s a = some t) (b : Text) : run s (a ++ b) = run t b := by
  rw [run_append, h, Option.bind_some]

theorem run_step {s t : State} {c : Nat} (h : step s c = some t) (text : Text) :
    run s (c :: text) = run t text := by
  rw [run_cons, h, Option.bind_some]

/-! ## Strings without escapes -/

/-- Code points that stand for themselves in a string. -/
def Plain (text : Text) : Prop := ∀ c ∈ text, 32 ≤ c ∧ c ≠ 34 ∧ c ≠ 92

theorem joinEscapes_plain (text : Text) : joinEscapes (text.map fun c => (c, false)) = text := by
  induction text with
  | nil => rfl
  | cons c rest ih =>
    cases rest with
    | nil => rfl
    | cons d rest =>
      show joinEscapes ((c, false) :: (d, false) :: _) = _
      rw [joinEscapes, if_neg (by simp)]
      exact congrArg (c :: ·) ih

theorem run_plain {text : Text} (h : Plain text) (stack : List Frame) (role : Role) (read : List (Nat × Bool)) :
    run (.string stack role read) text =
      some (.string stack role ((text.map fun c => (c, false)).reverse ++ read)) := by
  induction text generalizing read with
  | nil => rfl
  | cons c rest ih =>
    obtain ⟨hspace, hquote, hslash⟩ := h c List.mem_cons_self
    have hstep : step (.string stack role read) c = some (.string stack role ((c, false) :: read)) := by
      rw [step, if_neg hquote, if_neg hslash, if_neg (by omega)]
    rw [run_step hstep, ih fun d hd => h d (List.mem_cons_of_mem _ hd), List.map_cons, List.reverse_cons,
      List.append_assoc, List.singleton_append]

theorem run_closed {text : Text} (h : Plain text) (stack : List Frame) (role : Role) :
    run (.string stack role []) (text ++ [34]) = some (close stack role (text.map fun c => (c, false)).reverse) := by
  rw [run_trans (run_plain h stack role []), List.append_nil]
  rfl

/-- **A plain string is a value.** -/
theorem run_string {text : Text} (h : Plain text) (stack : List Frame) (rest : Text) :
    run (.value stack false) (34 :: (text ++ 34 :: rest)) = run (.done stack (.str text)) rest := by
  have hclosed := run_closed h stack .value
  rw [close, List.reverse_reverse, joinEscapes_plain] at hclosed
  rw [run_step (t := .string stack .value []) rfl, ← List.singleton_append, ← List.append_assoc,
    run_trans hclosed]

/-- **A plain string is a key.** -/
theorem run_key {text : Text} (h : Plain text) (stack : List Frame) (before : List (Text × Value)) (first : Bool)
    (rest : Text) :
    run (.key stack before first) (34 :: (text ++ 34 :: rest)) = run (.colon stack before text) rest := by
  have hclosed := run_closed h stack (.key before)
  rw [close, List.reverse_reverse, joinEscapes_plain] at hclosed
  have hstep : step (.key stack before first) 34 = some (.string stack (.key before) []) := by
    cases first <;> rfl
  rw [run_step hstep, ← List.singleton_append, ← List.append_assoc, run_trans hclosed]

/-! ## Numbers -/

theorem run_digits {text : Text} (h : ∀ c ∈ text, isDigit c = true) (stack : List Frame) (before : Text) :
    run (.number stack .whole before) text = some (.number stack .whole (before ++ text)) := by
  induction text generalizing before with
  | nil => rw [run_nil, List.append_nil]
  | cons c rest ih =>
    have hstep : step (.number stack .whole before) c = some (.number stack .whole (before ++ [c])) := by
      rw [step, if_neg fun h => (by cases h.1), Part.next, if_pos (h c List.mem_cons_self)]
    rw [run_step hstep, ih fun d hd => h d (List.mem_cons_of_mem _ hd), List.append_assoc,
      List.singleton_append]

/-- The digits of a number. -/
def digits (n : Nat) : Text := (Nat.toDigits 10 n).map Char.toNat

theorem digits_isDigit (n : Nat) : ∀ c ∈ digits n, isDigit c = true := by
  intro c hc
  obtain ⟨d, hd, rfl⟩ := List.mem_map.mp hc
  have hdigit := Nat.isDigit_of_mem_toDigits (by decide) (by decide) hd
  simp only [Char.isDigit, Bool.and_eq_true, decide_eq_true_eq, ge_iff_le, UInt32.le_iff_toNat_le] at hdigit
  exact decide_eq_true hdigit

theorem natOf_digits (n : Nat) : natOf (digits n) = n := by
  have h := Nat.ofDigitChars_toDigits (b := 10) (n := n) (by decide) (by decide)
  rw [Nat.ofDigitChars_eq_foldl] at h
  rw [natOf, digits, List.foldl_map]
  exact h

/-- The first digit of a number that is not zero is not zero. -/
theorem digits_head {n : Nat} (hn : n ≠ 0) : ∃ c rest, digits n = c :: rest ∧ c ≠ 48 := by
  induction n using Nat.strongRecOn with
  | ind n ih =>
    by_cases hsmall : n < 10
    · have hone : ∀ k < 10, k ≠ 0 → k.digitChar.toNat ≠ 48 := by decide
      refine ⟨n.digitChar.toNat, [], ?_, hone n hsmall hn⟩
      rw [digits, Nat.toDigits_of_lt_base hsmall]
      rfl
    · obtain ⟨c, rest, hdigits, hc⟩ := ih (n / 10) (by omega) (by omega)
      refine ⟨c, rest ++ [(n % 10).digitChar.toNat], ?_, hc⟩
      rw [digits, Nat.toDigits_of_base_le (by decide) (by omega), List.map_append]
      exact congrArg (· ++ _) hdigits

/-- Where a number ends, a value is complete. -/
theorem step_ended {part : Part} {c : Nat} (hnext : part.next c = none) (hterminal : part.terminal = true)
    (stack : List Frame) (text : Text) :
    step (.number stack part text) c = step (.done stack (numberOf part text)) c := by
  have hminus : ¬(part = .minus ∧ c = 73) := by
    rintro ⟨rfl, -⟩
    cases hterminal
  refine (if_neg hminus).trans ?_
  rw [hnext]
  exact if_pos hterminal

/-- **A natural number is a value**, before what ends it. -/
theorem run_number (n : Nat) (stack : List Frame) {c : Nat} (hc : c = 44 ∨ c = 125) (rest : Text) :
    run (.value stack false) (digits n ++ c :: rest) = run (.done stack (.int n)) (c :: rest) := by
  rcases eq_or_ne n 0 with rfl | hn
  · show run (.number stack .zero [48]) (c :: rest) = _
    have hnext : Part.zero.next c = none := by rcases hc with rfl | rfl <;> rfl
    rw [run_cons, step_ended hnext rfl, run_cons]
    rfl
  · obtain ⟨d, ds, hdigits, hd⟩ := digits_head hn
    have hall := digits_isDigit n
    rw [hdigits] at hall
    have hfirst : 48 ≤ d ∧ d ≤ 57 := of_decide_eq_true (hall d List.mem_cons_self)
    have hbegin : step (.value stack false) d = some (.number stack .whole [d]) := by
      have hspace : isSpace d = false := by
        unfold isSpace
        simp only [Bool.or_eq_false_iff, beq_eq_false_iff_ne]
        omega
      have hbegun : begin stack d = some (.number stack .whole [d]) := by
        rw [begin, if_neg (by omega), if_neg (by omega), if_neg (by omega), if_neg (by omega),
          if_neg (by omega), if_neg (by omega), if_neg (by omega), if_neg (by omega), if_neg (by omega),
          if_neg hd, if_pos (hall d List.mem_cons_self)]
      exact (if_neg (by rw [hspace]; decide)).trans ((if_neg fun h => (by cases h.1)).trans hbegun)
    have hdone : numberOf .whole (digits n) = .int n := by
      have hnotMinus : intOf (digits n) = natOf (digits n) := by
        rw [hdigits, intOf]
        intro digits heq
        have := (List.cons.inj heq).1
        omega
      rw [numberOf, hnotMinus, natOf_digits]
    have hnext : Part.whole.next c = none := by rcases hc with rfl | rfl <;> rfl
    have hrun : run (.value stack false) (digits n) = some (.number stack .whole (digits n)) := by
      rw [hdigits, run_step hbegin, run_digits fun x hx => hall x (List.mem_cons_of_mem _ hx)]
      rfl
    rw [run_trans hrun, run_cons, step_ended hnext rfl, run_cons, hdone]

end JsonText

end Aegis
