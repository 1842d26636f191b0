/-
  BASE64 FOR URLS, as Python writes and reads it.

  Three bytes are four characters.  Two bytes or one at the end are three characters or two, and `=` fills
  the group up; who strips the filling can put it back, because it only depends on how many characters are
  left (`filling_eq`).

  The reader is `binascii.a2b_base64` in its lenient mode: it passes over characters outside the alphabet,
  stops at the filling of a group, and refuses a text that ends inside one.  So many texts are read as the
  same bytes; what it does promise is that a written text is read back (`read_write`).
-/
import Mathlib

namespace Aegis

namespace Base64

/-! ## Characters -/

/-- The character of a number below 64. -/
def digit (n : Nat) : Char :=
  if n < 26 then Char.ofNat (65 + n)
  else if n < 52 then Char.ofNat (71 + n)
  else if n < 62 then Char.ofNat (n - 4)
  else if n = 62 then '-' else '_'

/-- The number of a character.  `urlsafe_b64decode` turns `-` and `_` into `+` and `/` first, so it
    reads both pairs. -/
def value (c : Char) : Option Nat :=
  if 65 ≤ c.toNat ∧ c.toNat ≤ 90 then some (c.toNat - 65)
  else if 97 ≤ c.toNat ∧ c.toNat ≤ 122 then some (c.toNat - 71)
  else if 48 ≤ c.toNat ∧ c.toNat ≤ 57 then some (c.toNat + 4)
  else if c = '-' ∨ c = '+' then some 62
  else if c = '_' ∨ c = '/' then some 63 else none

theorem value_digit : ∀ n, n < 64 → value (digit n) = some n := by decide

theorem digit_ne_fill : ∀ n, n < 64 → digit n ≠ '=' := by decide

theorem digit_ascii : ∀ n, n < 64 → (digit n).toNat < 128 := by decide

/-! ## Writing -/

/-- `urlsafe_b64encode`. -/
def write : List UInt8 → List Char
  | a :: b :: c :: rest =>
    digit (a.toNat / 4) :: digit (a.toNat % 4 * 16 + b.toNat / 16) ::
      digit (b.toNat % 16 * 4 + c.toNat / 64) :: digit (c.toNat % 64) :: write rest
  | [a, b] => [digit (a.toNat / 4), digit (a.toNat % 4 * 16 + b.toNat / 16), digit (b.toNat % 16 * 4), '=']
  | [a] => [digit (a.toNat / 4), digit (a.toNat % 4 * 16), '=', '=']
  | [] => []

/-- `.rstrip("=")`. -/
def strip (text : List Char) : List Char := (text.reverse.dropWhile fun c => c = '=').reverse

/-- `"=" * (-len(text) % 4)`. -/
def filling (text : List Char) : List Char := List.replicate ((4 - text.length % 4) % 4) '='

/-! ## Reading -/

/-- `a2b_base64`: where the reader stands in a group, what it has of a byte, and the filling it has met. -/
def scan : List Char → Nat → Nat → Nat → Option (List UInt8)
  | [], place, _, _ => if place = 0 then some [] else none
  | c :: rest, place, left, pads =>
    if c = '=' then
      if 2 ≤ place then
        if 4 ≤ place + (pads + 1) then some [] else scan rest place left (pads + 1)
      else scan rest place left pads
    else match value c with
      | none => scan rest place left pads
      | some n =>
        match place with
        | 0 => scan rest 1 n 0
        | 1 => (scan rest 2 (n % 16) 0).map (UInt8.ofNat (left * 4 + n / 16) :: ·)
        | 2 => (scan rest 3 (n % 4) 0).map (UInt8.ofNat (left * 16 + n / 4) :: ·)
        | _ => (scan rest 0 0 0).map (UInt8.ofNat (left * 64 + n) :: ·)

/-- `urlsafe_b64decode`; a text that is not ASCII is refused. -/
def read (text : List Char) : Option (List UInt8) :=
  if text.all (fun c => decide (c.toNat < 128)) = true then scan text 0 0 0 else none

/-! ## What is written is read back -/

/-- A character of the alphabet is the next number of its group. -/
theorem scan_first {n : Nat} (hn : n < 64) (rest : List Char) (left pads : Nat) :
    scan (digit n :: rest) 0 left pads = scan rest 1 n 0 := by
  rw [scan, if_neg (digit_ne_fill n hn), value_digit n hn]
  rfl

theorem scan_second {n : Nat} (hn : n < 64) (rest : List Char) (left pads : Nat) :
    scan (digit n :: rest) 1 left pads =
      (scan rest 2 (n % 16) 0).map (UInt8.ofNat (left * 4 + n / 16) :: ·) := by
  rw [scan, if_neg (digit_ne_fill n hn), value_digit n hn]
  rfl

theorem scan_third {n : Nat} (hn : n < 64) (rest : List Char) (left pads : Nat) :
    scan (digit n :: rest) 2 left pads =
      (scan rest 3 (n % 4) 0).map (UInt8.ofNat (left * 16 + n / 4) :: ·) := by
  rw [scan, if_neg (digit_ne_fill n hn), value_digit n hn]
  rfl

theorem scan_fourth {n : Nat} (hn : n < 64) (rest : List Char) (left pads : Nat) :
    scan (digit n :: rest) 3 left pads =
      (scan rest 0 0 0).map (UInt8.ofNat (left * 64 + n) :: ·) := by
  rw [scan, if_neg (digit_ne_fill n hn), value_digit n hn]
  rfl

theorem ofNat_eq {n : Nat} {a : UInt8} (h : n = a.toNat) : UInt8.ofNat n = a := by
  rw [h]
  exact UInt8.ofNat_toNat

/-- A group that is filled up ends the text. -/
theorem scan_fill_one (left : Nat) : scan ['='] 3 left 0 = some [] := rfl

theorem scan_fill_two (left : Nat) : scan ['=', '='] 2 left 0 = some [] := rfl

theorem scan_write (bytes : List UInt8) : scan (write bytes) 0 0 0 = some bytes := by
  induction bytes using write.induct with
  | case1 a b c rest ih =>
    have ha := a.toNat_lt
    have hb := b.toNat_lt
    have hc := c.toNat_lt
    rw [write, scan_first (by omega), scan_second (by omega), scan_third (by omega), scan_fourth (by omega),
      ih, Option.map_some, Option.map_some, Option.map_some, ofNat_eq (a := a) (by omega),
      ofNat_eq (a := b) (by omega), ofNat_eq (a := c) (by omega)]
  | case2 a b =>
    have ha := a.toNat_lt
    have hb := b.toNat_lt
    rw [write, scan_first (by omega), scan_second (by omega), scan_third (by omega), scan_fill_one,
      Option.map_some, Option.map_some, ofNat_eq (a := a) (by omega), ofNat_eq (a := b) (by omega)]
  | case3 a =>
    have ha := a.toNat_lt
    rw [write, scan_first (by omega), scan_second (by omega), scan_fill_two, Option.map_some,
      ofNat_eq (a := a) (by omega)]
  | case4 => rfl

/-! ## Filling -/

/-- What is written is digits and the filling of the last group. -/
theorem write_split (bytes : List UInt8) : ∃ digits, write bytes = digits ++ filling digits ∧
    (∀ c ∈ digits, c ≠ '=' ∧ c.toNat < 128) ∧ digits.length ≤ (bytes.length * 4 + 2) / 3 := by
  have hdigit : ∀ n, n < 64 → digit n ≠ '=' ∧ (digit n).toNat < 128 :=
    fun n hn => ⟨digit_ne_fill n hn, digit_ascii n hn⟩
  induction bytes using write.induct with
  | case1 a b c rest ih =>
    have ha := a.toNat_lt
    have hb := b.toNat_lt
    have hc := c.toNat_lt
    obtain ⟨digits, hwrite, hplain, hlength⟩ := ih
    refine ⟨digit (a.toNat / 4) :: digit (a.toNat % 4 * 16 + b.toNat / 16) ::
      digit (b.toNat % 16 * 4 + c.toNat / 64) :: digit (c.toNat % 64) :: digits, ?_, ?_, ?_⟩
    · have hfilling : filling (digit (a.toNat / 4) :: digit (a.toNat % 4 * 16 + b.toNat / 16) ::
          digit (b.toNat % 16 * 4 + c.toNat / 64) :: digit (c.toNat % 64) :: digits) = filling digits := by
        unfold filling
        simp only [List.length_cons]
        congr 1
        omega
      rw [hfilling, write, hwrite]
      rfl
    · intro x hx
      simp only [List.mem_cons] at hx
      rcases hx with rfl | rfl | rfl | rfl | hx
      · exact hdigit _ (by omega)
      · exact hdigit _ (by omega)
      · exact hdigit _ (by omega)
      · exact hdigit _ (by omega)
      · exact hplain x hx
    · simp only [List.length_cons]
      omega
  | case2 a b =>
    have ha := a.toNat_lt
    have hb := b.toNat_lt
    refine ⟨[digit (a.toNat / 4), digit (a.toNat % 4 * 16 + b.toNat / 16), digit (b.toNat % 16 * 4)], rfl,
      ?_, by simp⟩
    intro x hx
    simp only [List.mem_cons, List.not_mem_nil, or_false] at hx
    rcases hx with rfl | rfl | rfl <;> exact hdigit _ (by omega)
  | case3 a =>
    have ha := a.toNat_lt
    refine ⟨[digit (a.toNat / 4), digit (a.toNat % 4 * 16)], rfl, ?_, by simp⟩
    intro x hx
    simp only [List.mem_cons, List.not_mem_nil, or_false] at hx
    rcases hx with rfl | rfl <;> exact hdigit _ (by omega)
  | case4 => exact ⟨[], rfl, fun _ h => absurd h List.not_mem_nil, by simp⟩

theorem strip_filled {digits : List Char} (h : ∀ c ∈ digits, c ≠ '=') (n : Nat) :
    strip (digits ++ List.replicate n '=') = digits := by
  have hfill : ∀ c ∈ List.replicate n '=', decide (c = '=') = true := by
    intro c hc
    rw [List.eq_of_mem_replicate hc]
    rfl
  have hdigits : (digits.reverse.dropWhile fun c => decide (c = '=')) = digits.reverse := by
    cases hreverse : digits.reverse with
    | nil => rfl
    | cons c rest =>
      have hc : c ∈ digits := List.mem_reverse.mp (by rw [hreverse]; exact List.mem_cons_self)
      exact List.dropWhile_cons_of_neg (by simpa using h c hc)
  rw [strip, List.reverse_append, List.reverse_replicate, List.dropWhile_append_of_pos hfill, hdigits,
    List.reverse_reverse]

/-- **A written text is read back**, also when its filling was stripped and put back. -/
theorem read_write (bytes : List UInt8) :
    read (strip (write bytes) ++ filling (strip (write bytes))) = some bytes ∧
      (strip (write bytes)).length ≤ (bytes.length * 4 + 2) / 3 := by
  obtain ⟨digits, hwrite, hplain, hlength⟩ := write_split bytes
  have hstrip : strip (write bytes) = digits := by
    rw [hwrite]
    exact strip_filled (fun c hc => (hplain c hc).1) _
  rw [hstrip, ← hwrite]
  refine ⟨?_, hlength⟩
  rw [read, if_pos ?_]
  · exact scan_write bytes
  · rw [hwrite, List.all_eq_true]
    intro c hc
    rcases List.mem_append.mp hc with hc | hc
    · exact decide_eq_true (hplain c hc).2
    · rw [List.eq_of_mem_replicate hc]
      decide

end Base64

end Aegis
