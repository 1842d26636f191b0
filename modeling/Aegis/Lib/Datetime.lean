/-
  AWARE DATETIMES AND THEIR ISO TEXT.

  An aware datetime is an instant together with the UTC offset it is written in; comparisons look
  at the instant only.  `isoformat` is Python's: the local calendar fields, microseconds only when
  they are not zero, then the offset.  The calendar is the proleptic Gregorian one, counted from
  1 March so that the leap day is the last day of a year.

  What a development needs from the text is `isoformat_inj`: it determines the instant AND the
  offset.  Every field is a block of digits before a character that is no digit, so the text is
  read off field by field (`pad_unique`), and the fields are turned back into the day count
  (`civil_inj`).
-/
import Mathlib
import Aegis.Lib.Json

namespace Aegis

/-- An aware datetime: microseconds since 1970-01-01T00:00:00Z, and the offset from UTC it is
    written with, in whole minutes as in RFC 3339. -/
structure Datetime where
  instant : Int
  offset : Int
deriving DecidableEq, Repr

namespace Datetime

instance : LE Datetime := ⟨fun a b => a.instant ≤ b.instant⟩

instance : LT Datetime := ⟨fun a b => a.instant < b.instant⟩

instance (a b : Datetime) : Decidable (a ≤ b) := inferInstanceAs (Decidable (a.instant ≤ b.instant))

instance (a b : Datetime) : Decidable (a < b) := inferInstanceAs (Decidable (a.instant < b.instant))

theorem le_iff {a b : Datetime} : a ≤ b ↔ a.instant ≤ b.instant := Iff.rfl

theorem lt_iff {a b : Datetime} : a < b ↔ a.instant < b.instant := Iff.rfl

/-- `astimezone(UTC)`: the same instant, written in UTC. -/
def utc (d : Datetime) : Datetime := { d with offset := 0 }

/-- `self + timedelta(seconds=n)`. -/
def addSeconds (d : Datetime) (n : Int) : Datetime :=
  { d with instant := d.instant + n * 1000000 }

/-! ## The calendar -/

/-- Year (starting in March), day of that year, of a day count from 0000-03-01. -/
def marchYear (z : Int) : Int × Int :=
  let n400 := z / 146097
  let r400 := z % 146097
  let n100 := min 3 (r400 / 36524)
  let r100 := r400 - 36524 * n100
  let n4 := r100 / 1461
  let r4 := r100 % 1461
  let n1 := min 3 (r4 / 365)
  (400 * n400 + 100 * n100 + 4 * n4 + n1, r4 - 365 * n1)

/-- Calendar year, month and day of a day count from 1970-01-01. -/
def civil (days : Int) : Int × Nat × Nat :=
  let (year, doy) := marchYear (days + 719468)
  let mp := (5 * doy + 2) / 153
  let month := if mp < 10 then mp + 3 else mp - 9
  (if month ≤ 2 then year + 1 else year, month.toNat, (doy - (153 * mp + 2) / 5 + 1).toNat)

theorem marchYear_doy (z : Int) : 0 ≤ (marchYear z).2 ∧ (marchYear z).2 ≤ 365 := by
  simp only [marchYear]; omega

theorem marchYear_inj {z z' : Int} (hy : (marchYear z).1 = (marchYear z').1)
    (hd : (marchYear z).2 = (marchYear z').2) : z = z' := by
  simp only [marchYear] at hy hd
  -- the four quotients are the digits of the year, so equal years have equal quotients
  have h400 : z / 146097 = z' / 146097 := by omega
  have h100 : min 3 (z % 146097 / 36524) = min 3 (z' % 146097 / 36524) := by omega
  have h4 : (z % 146097 - 36524 * min 3 (z % 146097 / 36524)) / 1461
      = (z' % 146097 - 36524 * min 3 (z' % 146097 / 36524)) / 1461 := by omega
  omega

theorem civil_inj {a b : Int} (h : civil a = civil b) : a = b := by
  have hda := marchYear_doy (a + 719468)
  have hdb := marchYear_doy (b + 719468)
  simp only [civil, Prod.mk.injEq] at h
  obtain ⟨hyear, hmonth, hday⟩ := h
  have hmp : (5 * (marchYear (a + 719468)).2 + 2) / 153
      = (5 * (marchYear (b + 719468)).2 + 2) / 153 := by
    revert hmonth; split <;> split <;> intro hmonth <;> omega
  rw [hmp] at hday hyear
  have hdoy : (marchYear (a + 719468)).2 = (marchYear (b + 719468)).2 := by omega
  have hy : (marchYear (a + 719468)).1 = (marchYear (b + 719468)).1 := by
    revert hyear; split <;> split <;> intro hyear <;> omega
  have := marchYear_inj hy hdoy
  omega

/-! ## Digits -/

/-- `n` in decimal, filled with zeros to `width` digits. -/
def pad (width n : Nat) : List Char :=
  List.replicate (width - (Nat.toDigits 10 n).length) '0' ++ Nat.toDigits 10 n

theorem pad_isDigit {width n : Nat} {c : Char} (hc : c ∈ pad width n) : c.isDigit = true := by
  rcases List.mem_append.mp hc with h | h
  · rw [(List.mem_replicate.mp h).2]; decide
  · exact Nat.isDigit_of_mem_toDigits (by decide) (by decide) h

theorem pad_value (width n : Nat) : Nat.ofDigitChars 10 (pad width n) 0 = n := by
  rw [pad, Nat.ofDigitChars_append, Nat.ofDigitChars_replicate_zero, Nat.mul_zero]
  exact Nat.ofDigitChars_ten_toDigits

theorem pad_inj {width n m : Nat} (h : pad width n = pad width m) : n = m := by
  rw [← pad_value width n, h, pad_value]

/-- A text that does not go on with a digit. -/
def NoDigit (u : List Char) : Prop := ∀ c rest, u = c :: rest → c.isDigit = false

theorem noDigit_cons {c : Char} (u : List Char) (h : c.isDigit = false) : NoDigit (c :: u) := by
  rintro d rest hd
  rw [← (List.cons.inj hd).1]; exact h

/-- A padded number before a character that is no digit can be read off. -/
theorem pad_unique {width n m : Nat} {u v : List Char} (hu : NoDigit u) (hv : NoDigit v)
    (h : pad width n ++ u = pad width m ++ v) : n = m ∧ u = v := by
  obtain ⟨hnm, huv⟩ := block_unique _ _ u v (fun _ hc => pad_isDigit hc)
    (fun _ hc => pad_isDigit hc) hu hv h
  exact ⟨pad_inj hnm, huv⟩

/-! ## Texts -/

/-- Microseconds since the local 1970-01-01T00:00:00. -/
def localTime (d : Datetime) : Int := d.instant + d.offset * 60000000

def yearText (year : Int) : List Char :=
  if year < 0 then '-' :: pad 4 year.natAbs else pad 4 year.natAbs

/-- Microseconds, left out when they are zero. -/
def fractionText (micros : Nat) : List Char := if micros = 0 then [] else '.' :: pad 6 micros

/-- The seconds of a day as `HH:MM:SS`, then the fraction. -/
def clockText (second micros : Nat) : List Char :=
  pad 2 (second / 3600) ++ ':' :: (pad 2 (second / 60 % 60) ++ ':' ::
    (pad 2 (second % 60) ++ fractionText micros))

def dateText (date : Int × Nat × Nat) : List Char :=
  yearText date.1 ++ '-' :: (pad 2 date.2.1 ++ '-' :: pad 2 date.2.2)

/-- Date, `T` and time of day, without the offset. -/
def naiveText (time : Int) : List Char :=
  dateText (civil (time / 86400000000)) ++ 'T' ::
    clockText (time / 1000000 % 86400).toNat (time % 1000000).toNat

/-- `+HH:MM` or `-HH:MM`. -/
def offsetText (offset : Int) : List Char :=
  (if offset < 0 then '-' else '+') ::
    (pad 2 (offset.natAbs / 60) ++ ':' :: pad 2 (offset.natAbs % 60))

/-- `datetime.isoformat()`. -/
def isoformat (d : Datetime) : String :=
  String.ofList (naiveText d.localTime ++ offsetText d.offset)

/-- The text a JSON dump of a model writes: as `isoformat`, with `Z` for UTC. -/
def jsonText (d : Datetime) : String :=
  String.ofList (naiveText d.localTime ++ if d.offset = 0 then ['Z'] else offsetText d.offset)

/-! ## The text is read off field by field -/

/-- What follows a time of day: neither a digit nor the point of a fraction. -/
def NoFraction (u : List Char) : Prop := ∀ c rest, u = c :: rest → c.isDigit = false ∧ c ≠ '.'

theorem NoFraction.noDigit {u : List Char} (hu : NoFraction u) : NoDigit u :=
  fun c rest h => (hu c rest h).1

theorem noFraction_offset (offset : Int) : NoFraction (offsetText offset) := by
  intro c rest h
  rw [← (List.cons.inj h).1]
  split <;> decide

theorem noFraction_z : NoFraction ['Z'] := by
  intro c rest h
  rw [← (List.cons.inj h).1]; decide

theorem fractionText_noDigit {micros : Nat} {u : List Char} (hu : NoFraction u) :
    NoDigit (fractionText micros ++ u) := by
  unfold fractionText
  split
  · exact hu.noDigit
  · exact noDigit_cons _ (by decide)

theorem fractionText_unique {m n : Nat} {u v : List Char} (hu : NoFraction u) (hv : NoFraction v)
    (h : fractionText m ++ u = fractionText n ++ v) : m = n ∧ u = v := by
  unfold fractionText at h
  split at h <;> split at h
  · exact ⟨by omega, h⟩
  · exact absurd rfl (hu '.' _ h).2
  · exact absurd rfl (hv '.' _ h.symm).2
  · exact pad_unique hu.noDigit hv.noDigit (List.cons.inj h).2

theorem clockText_unique {s t m n : Nat} {u v : List Char} (hu : NoFraction u) (hv : NoFraction v)
    (h : clockText s m ++ u = clockText t n ++ v) : s = t ∧ m = n ∧ u = v := by
  simp only [clockText, List.append_assoc, List.cons_append] at h
  obtain ⟨hhour, h⟩ := pad_unique (noDigit_cons _ (by decide)) (noDigit_cons _ (by decide)) h
  obtain ⟨hminute, h⟩ := pad_unique (noDigit_cons _ (by decide)) (noDigit_cons _ (by decide))
    (List.cons.inj h).2
  obtain ⟨hsecond, h⟩ := pad_unique (fractionText_noDigit hu) (fractionText_noDigit hv)
    (List.cons.inj h).2
  obtain ⟨hmicros, huv⟩ := fractionText_unique hu hv h
  exact ⟨by omega, hmicros, huv⟩

/-- No number starts with a sign. -/
theorem pad_ne_minus {width n : Nat} {u v : List Char} : pad width n ++ u ≠ '-' :: v := by
  intro h
  cases hp : pad width n with
  | nil =>
    have hnil := (List.append_eq_nil_iff.mp hp).2
    exact Nat.toDigits_ne_nil hnil
  | cons c cs =>
    have hmem : c ∈ pad width n := by rw [hp]; exact List.mem_cons_self
    have hdigit := pad_isDigit hmem
    rw [hp, List.cons_append] at h
    rw [(List.cons.inj h).1] at hdigit
    exact absurd hdigit (by decide)

theorem yearText_unique {y z : Int} {u v : List Char} (hu : NoDigit u) (hv : NoDigit v)
    (h : yearText y ++ u = yearText z ++ v) : y = z ∧ u = v := by
  unfold yearText at h
  split at h <;> split at h
  · obtain ⟨hn, huv⟩ := pad_unique hu hv (List.cons.inj h).2
    exact ⟨by omega, huv⟩
  · exact absurd h.symm pad_ne_minus
  · exact absurd h pad_ne_minus
  · obtain ⟨hn, huv⟩ := pad_unique hu hv h
    exact ⟨by omega, huv⟩

theorem dateText_unique {a b : Int × Nat × Nat} {u v : List Char} (hu : NoDigit u) (hv : NoDigit v)
    (h : dateText a ++ u = dateText b ++ v) : a = b ∧ u = v := by
  simp only [dateText, List.append_assoc, List.cons_append] at h
  obtain ⟨hyear, h⟩ := yearText_unique (noDigit_cons _ (by decide)) (noDigit_cons _ (by decide)) h
  obtain ⟨hmonth, h⟩ := pad_unique (noDigit_cons _ (by decide)) (noDigit_cons _ (by decide))
    (List.cons.inj h).2
  obtain ⟨hday, huv⟩ := pad_unique hu hv (List.cons.inj h).2
  exact ⟨Prod.ext hyear (Prod.ext hmonth hday), huv⟩

theorem naiveText_unique {s t : Int} {u v : List Char} (hu : NoFraction u) (hv : NoFraction v)
    (h : naiveText s ++ u = naiveText t ++ v) : s = t ∧ u = v := by
  simp only [naiveText, List.append_assoc, List.cons_append] at h
  obtain ⟨hdate, h⟩ := dateText_unique (noDigit_cons _ (by decide)) (noDigit_cons _ (by decide)) h
  obtain ⟨hsecond, hmicros, huv⟩ := clockText_unique hu hv (List.cons.inj h).2
  have hday := civil_inj hdate
  exact ⟨by omega, huv⟩

theorem offsetText_inj {a b : Int} (h : offsetText a = offsetText b) : a = b := by
  obtain ⟨hsign, h⟩ := List.cons.inj h
  obtain ⟨hhour, h⟩ := pad_unique (noDigit_cons _ (by decide)) (noDigit_cons _ (by decide)) h
  have hminute := pad_inj (List.cons.inj h).2
  revert hsign
  split <;> split <;> intro hsign
  · omega
  · exact absurd hsign (by decide)
  · exact absurd hsign (by decide)
  · omega

theorem eq_of_localTime {a b : Datetime} (ht : a.localTime = b.localTime) (ho : a.offset = b.offset) :
    a = b := by
  obtain ⟨ia, oa⟩ := a
  obtain ⟨ib, ob⟩ := b
  simp only [localTime] at ht ho
  subst ho
  congr 1
  omega

/-- **`isoformat` determines the datetime**, offset included. -/
theorem isoformat_inj {a b : Datetime} (h : a.isoformat = b.isoformat) : a = b := by
  obtain ⟨ht, ho⟩ := naiveText_unique (noFraction_offset _) (noFraction_offset _)
    (String.ofList_inj.mp h)
  exact eq_of_localTime ht (offsetText_inj ho)

theorem jsonText_inj {a b : Datetime} (h : a.jsonText = b.jsonText) : a = b := by
  have hstop : ∀ d : Datetime, NoFraction (if d.offset = 0 then ['Z'] else offsetText d.offset) := by
    intro d
    split
    · exact noFraction_z
    · exact noFraction_offset _
  obtain ⟨ht, ho⟩ := naiveText_unique (hstop a) (hstop b) (String.ofList_inj.mp h)
  refine eq_of_localTime ht ?_
  have hz : ∀ offset : Int, offsetText offset ≠ ['Z'] := by
    intro offset hz
    have := (List.cons.inj hz).1
    revert this
    split <;> decide
  split at ho <;> split at ho
  · omega
  · exact absurd ho.symm (hz _)
  · exact absurd ho (hz _)
  · exact offsetText_inj ho

example : (Datetime.mk 1700000000000000 0).isoformat = "2023-11-14T22:13:20+00:00" := by decide +kernel

example : (Datetime.mk 951782400000001 (-330)).isoformat = "2000-02-28T18:30:00.000001-05:30" := by
  decide +kernel

end Datetime

end Aegis
