/-
  COSTS.

  A cost is a product of token counts and prices divided by a million and ROUNDED UP.  The source divides with
  `Decimal`, which keeps 28 digits; the products that prices and tokens admit have 20 digits at most, so
  nothing is lost and the result is the exact ceiling (`roundCost_exact`).

  A usage that stays within the reserved tokens costs at most what was reserved for it, because input, cache
  reads and cache writes share the reserved input tokens and each of the three was reserved at its own price.
-/
import Mathlib
import Aegis.Model.Records

namespace Aegis

namespace Model

/-! ## Decimal division -/

/-- A nonnegative `Decimal`: `coefficient * 10 ^ exponent`. -/
structure Decimal where
  coefficient : Nat
  exponent : Int
deriving DecidableEq, Repr

/-- `len(str(n))`. -/
def digitCount (n : Nat) : Nat := (Nat.toDigits 10 n).length

/-- `while exp < 0 and coeff % 10 == 0: coeff //= 10; exp += 1`, with `scale = -exp`. -/
def stripZeros : Nat → Nat → Nat × Nat
  | 0, coefficient => (0, coefficient)
  | scale + 1, coefficient =>
    if coefficient % 10 = 0 then stripZeros scale (coefficient / 10) else (scale + 1, coefficient)

/-- Division by `10 ^ drop`, rounded to the nearest, a tie to the even neighbour. -/
def halfEven (n drop : Nat) : Nat :=
  let quotient := n / 10 ^ drop
  let rest := n % 10 ^ drop
  if 10 ^ drop < 2 * rest ∨ (2 * rest = 10 ^ drop ∧ quotient % 2 = 1) then quotient + 1 else quotient

/-- `_fix`: at most `precision` digits are kept. -/
def Decimal.fix (precision : Nat) (d : Decimal) : Decimal :=
  let drop := digitCount d.coefficient - precision
  if drop = 0 then d
  else
    let rounded := halfEven d.coefficient drop
    if precision < digitCount rounded then ⟨rounded / 10, d.exponent + drop + 1⟩
    else ⟨rounded, d.exponent + drop⟩

/-- The quotient of two whole numbers before rounding, with more digits than are kept; an inexact one is
    marked in its last digit. -/
def quotient (precision n m : Nat) : Decimal :=
  let shift : Int := (digitCount m : Int) - digitCount n + precision + 1
  let top := if 0 ≤ shift then n * 10 ^ shift.toNat else n
  let bottom := if 0 ≤ shift then m else m * 10 ^ (-shift).toNat
  if top % bottom ≠ 0 then
    ⟨if top / bottom % 5 = 0 then top / bottom + 1 else top / bottom, -shift⟩
  else if 0 ≤ shift then
    ⟨(stripZeros shift.toNat (top / bottom)).2, -((stripZeros shift.toNat (top / bottom)).1 : Int)⟩
  else ⟨top / bottom, -shift⟩

/-- `Decimal(n) / Decimal(m)`. -/
def Decimal.div (precision n m : Nat) : Decimal :=
  if n = 0 then ⟨0, 0⟩ else (quotient precision n m).fix precision

/-- `int(d.to_integral_value(rounding=ROUND_CEILING))`. -/
def Decimal.ceiling (d : Decimal) : Nat :=
  if 0 ≤ d.exponent then d.coefficient * 10 ^ d.exponent.toNat
  else (d.coefficient + 10 ^ (-d.exponent).toNat - 1) / 10 ^ (-d.exponent).toNat

/-- `_round_cost`. -/
def roundCost (product : Nat) : Nat := (Decimal.div 28 product 1000000).ceiling

/-! ## Nothing is lost -/

theorem digitCount_le {n k : Nat} (hk : 0 < k) (h : n < 10 ^ k) : digitCount n ≤ k :=
  (Nat.length_toDigits_le_iff (by decide) hk).mpr h

theorem digitCount_pos (n : Nat) : 0 < digitCount n := Nat.length_toDigits_pos

/-- Stripping zeros changes the scale and not the value, and stops at a last digit or at a whole number. -/
theorem stripZeros_value (scale coefficient : Nat) :
    (stripZeros scale coefficient).2 * 10 ^ (scale - (stripZeros scale coefficient).1) = coefficient ∧
      (stripZeros scale coefficient).1 ≤ scale ∧
      ((stripZeros scale coefficient).1 = 0 ∨ (stripZeros scale coefficient).2 % 10 ≠ 0) := by
  induction scale generalizing coefficient with
  | zero => exact ⟨Nat.mul_one _, Nat.le_refl _, .inl rfl⟩
  | succ scale ih =>
    rw [stripZeros]
    split
    · rename_i hzero
      obtain ⟨hvalue, hscale, hstop⟩ := ih (coefficient / 10)
      refine ⟨?_, Nat.le_succ_of_le hscale, hstop⟩
      rw [Nat.succ_sub hscale, pow_succ, ← mul_assoc, hvalue]
      exact Nat.div_mul_cancel (Nat.dvd_of_mod_eq_zero hzero)
    · rename_i hdigit
      refine ⟨?_, Nat.le_refl _, .inr hdigit⟩
      rw [Nat.sub_self, pow_zero, mul_one]

/-- **The quotient of a product is exact**: it has at most six decimals and as many digits as are kept. -/
theorem div_exact {n : Nat} (hn : n < 10 ^ 28) : ∃ coefficient scale : Nat, scale ≤ 6 ∧
    coefficient * 10 ^ (6 - scale) = n ∧ Decimal.div 28 n 1000000 = ⟨coefficient, -(scale : Int)⟩ := by
  rcases Nat.eq_zero_or_pos n with rfl | hpos
  · exact ⟨0, 0, by omega, Nat.zero_mul _, rfl⟩
  have hcount : digitCount n ≤ 28 := digitCount_le (by decide) hn
  have hcountPos := digitCount_pos n
  have hmillion : digitCount 1000000 = 7 := by decide
  -- the shifted product is divided by a million without a rest
  have hshift : ((digitCount 1000000 : Int) - digitCount n + (28 : Nat) + 1).toNat = 36 - digitCount n := by
    rw [hmillion]; omega
  have hnonneg : (0 : Int) ≤ (digitCount 1000000 : Int) - digitCount n + (28 : Nat) + 1 := by
    rw [hmillion]; omega
  have htop : n * 10 ^ (36 - digitCount n) = n * 10 ^ (30 - digitCount n) * 1000000 := by
    have hsplit : 36 - digitCount n = (30 - digitCount n) + 6 := by omega
    rw [hsplit, pow_add, ← mul_assoc]
    norm_num
  have hquotient : quotient 28 n 1000000 =
      ⟨(stripZeros (36 - digitCount n) (n * 10 ^ (30 - digitCount n))).2,
        -((stripZeros (36 - digitCount n) (n * 10 ^ (30 - digitCount n))).1 : Int)⟩ := by
    unfold quotient
    dsimp only
    rw [if_pos hnonneg, if_pos hnonneg, hshift, htop, Nat.mul_mod_left, if_neg (by decide),
      Nat.mul_div_cancel _ (by decide), if_pos hnonneg]
  obtain ⟨hvalue, hscale, hstop⟩ :=
    stripZeros_value (36 - digitCount n) (n * 10 ^ (30 - digitCount n))
  generalize (stripZeros (36 - digitCount n) (n * 10 ^ (30 - digitCount n))).1 = scale at *
  generalize (stripZeros (36 - digitCount n) (n * 10 ^ (30 - digitCount n))).2 = coefficient at *
  have hsix : scale ≤ 6 := by
    by_contra hmore
    rcases hstop with rfl | hdigit
    · omega
    · -- more than six decimals would leave a zero at the end
      have hsplit : 30 - digitCount n = (scale - 6) + (36 - digitCount n - scale) := by omega
      rw [hsplit, pow_add, ← mul_assoc] at hvalue
      have hsame := Nat.eq_of_mul_eq_mul_right (Nat.pow_pos (by decide)) hvalue
      have hten : 10 ^ (scale - 6) = 10 * 10 ^ (scale - 7) := by
        have h7 : scale - 6 = (scale - 7) + 1 := by omega
        rw [h7, pow_succ, mul_comm]
      refine hdigit ?_
      rw [hsame, hten, mul_left_comm]
      exact Nat.mul_mod_right _ _
  have hproduct : coefficient * 10 ^ (6 - scale) = n := by
    have hsplit : 36 - digitCount n - scale = (6 - scale) + (30 - digitCount n) := by omega
    rw [hsplit, pow_add, ← mul_assoc] at hvalue
    exact Nat.eq_of_mul_eq_mul_right (Nat.pow_pos (by decide)) hvalue
  refine ⟨coefficient, scale, hsix, hproduct, ?_⟩
  have hkept : digitCount coefficient ≤ 28 := by
    refine digitCount_le (by decide) (lt_of_le_of_lt ?_ hn)
    rw [← hproduct]
    exact Nat.le_mul_of_pos_right _ (Nat.pow_pos (by decide))
  rw [Decimal.div, if_neg (by omega), hquotient, Decimal.fix]
  dsimp only
  rw [if_pos (by omega)]

/-- Rounding up a number of `scale` decimals is rounding up its millionths. -/
theorem ceil_scale {coefficient scale : Nat} (hscale : scale ≤ 6) :
    (coefficient + 10 ^ scale - 1) / 10 ^ scale =
      (coefficient * 10 ^ (6 - scale) + 999999) / 1000000 := by
  have hsix : 10 ^ (6 - scale) * 10 ^ scale = 1000000 := by
    rw [← pow_add, Nat.sub_add_cancel hscale]
    norm_num
  have hp : 0 < 10 ^ scale := Nat.pow_pos (by decide)
  have hq : 0 < 10 ^ (6 - scale) := Nat.pow_pos (by decide)
  generalize 10 ^ scale = p at *
  generalize 10 ^ (6 - scale) = q at *
  obtain ⟨p, rfl⟩ := Nat.exists_eq_succ_of_ne_zero hp.ne'
  obtain ⟨q, rfl⟩ := Nat.exists_eq_succ_of_ne_zero hq.ne'
  have hnines : 999999 = p * (q + 1) + q := by
    have h := hsix
    rw [Nat.succ_eq_add_one, Nat.succ_eq_add_one, Nat.mul_comm, Nat.add_mul, Nat.one_mul] at h
    omega
  have hsum : coefficient * (q + 1) + 999999 = (coefficient + p) * (q + 1) + q := by
    rw [hnines, Nat.add_mul, Nat.add_assoc]
  rw [← hsix, hsum, ← Nat.div_div_eq_div_mul, Nat.succ_eq_add_one, Nat.succ_eq_add_one]
  have hinner : ((coefficient + p) * (q + 1) + q) / (q + 1) = coefficient + p := by
    rw [Nat.add_comm, Nat.add_mul_div_right _ _ (Nat.succ_pos q), Nat.div_eq_of_lt (Nat.lt_succ_self q),
      Nat.zero_add]
  rw [hinner]
  rfl

/-- A cost is its product divided by a million, rounded up. -/
theorem roundCost_eq {n : Nat} (hn : n < 10 ^ 28) : roundCost n = (n + 999999) / 1000000 := by
  obtain ⟨coefficient, scale, hscale, hproduct, hdiv⟩ := div_exact hn
  rw [roundCost, hdiv, Decimal.ceiling]
  dsimp only
  rw [← hproduct, ← ceil_scale hscale]
  rcases Nat.eq_zero_or_pos scale with rfl | hpos
  · rw [if_pos (by decide)]
    simp
  · have hneg : (-(-(scale : Int))).toNat = scale := by omega
    rw [if_neg (by omega), hneg]

/-- **`_round_cost` is the exact ceiling.** -/
theorem roundCost_exact {n : Nat} (hn : n < 10 ^ 28) : roundCost n = ⌈(n : ℚ) / 1000000⌉₊ := by
  rw [roundCost_eq hn]
  refine le_antisymm ?_ ?_
  · have hle : (n : ℚ) ≤ ⌈(n : ℚ) / 1000000⌉₊ * 1000000 := by
      have h := Nat.le_ceil ((n : ℚ) / 1000000)
      rwa [div_le_iff₀ (by norm_num)] at h
    have hnat : n ≤ ⌈(n : ℚ) / 1000000⌉₊ * 1000000 := by exact_mod_cast hle
    omega
  · refine Nat.ceil_le.mpr ?_
    rw [div_le_iff₀ (by norm_num)]
    have hnat : n ≤ (n + 999999) / 1000000 * 1000000 := by omega
    exact_mod_cast hnat

theorem roundCost_mono {n m : Nat} (h : n ≤ m) (hm : m < 10 ^ 28) : roundCost n ≤ roundCost m := by
  rw [roundCost_eq (lt_of_le_of_lt h hm), roundCost_eq hm]
  omega

/-! ## Costs -/

namespace ModelPrice

/-- What is divided by a million: four kinds of tokens, each at its own price. -/
def product (price : ModelPrice) (input output cacheRead cacheWrite : Nat) : Nat :=
  input * price.input + output * price.output + cacheRead * price.cacheRead
    + cacheWrite * price.cacheWrite

/-- `maximum_cost_microunits`. -/
def maximumCostMicrounits (price : ModelPrice) (inputTokens outputTokens : Nat) : Nat :=
  roundCost (price.product inputTokens outputTokens inputTokens inputTokens)

/-- `actual_cost_microunits`. -/
def actualCostMicrounits (price : ModelPrice) (usage : ModelUsage) : Nat :=
  roundCost (price.product usage.inputTokens usage.outputTokens usage.cacheReadTokens
    usage.cacheWriteTokens)

/-- Products of prices and token counts stay far below what is kept exactly. -/
theorem product_lt (price : ModelPrice) {input output cacheRead cacheWrite : Nat}
    (hinput : input ≤ 10000000) (houtput : output ≤ 10000000) (hread : cacheRead ≤ 10000000)
    (hwrite : cacheWrite ≤ 10000000) :
    price.product input output cacheRead cacheWrite < 10 ^ 28 := by
  have h1 := Nat.mul_le_mul hinput price.input_ok
  have h2 := Nat.mul_le_mul houtput price.output_ok
  have h3 := Nat.mul_le_mul hread price.read_ok
  have h4 := Nat.mul_le_mul hwrite price.write_ok
  unfold product
  norm_num at *
  omega

/-- Tokens of three kinds that share a bound cost at most the bound at each price. -/
theorem product_le (price : ModelPrice) {input output cacheRead cacheWrite inputTokens outputTokens : Nat}
    (houtput : output ≤ outputTokens) (hinput : input + cacheRead + cacheWrite ≤ inputTokens) :
    price.product input output cacheRead cacheWrite
      ≤ price.product inputTokens outputTokens inputTokens inputTokens := by
  have h1 : input * price.input ≤ inputTokens * price.input := Nat.mul_le_mul_right _ (by omega)
  have h2 : output * price.output ≤ outputTokens * price.output := Nat.mul_le_mul_right _ houtput
  have h3 : cacheRead * price.cacheRead ≤ inputTokens * price.cacheRead :=
    Nat.mul_le_mul_right _ (by omega)
  have h4 : cacheWrite * price.cacheWrite ≤ inputTokens * price.cacheWrite :=
    Nat.mul_le_mul_right _ (by omega)
  unfold product
  omega

/-- A usage within the reserved tokens costs at most what was reserved for it. -/
theorem actual_le_maximum (price : ModelPrice) {usage : ModelUsage} {inputTokens outputTokens : Nat}
    (houtput : usage.outputTokens ≤ outputTokens)
    (hinput : usage.inputTokens + usage.cacheReadTokens + usage.cacheWriteTokens ≤ inputTokens)
    (hinputTokens : inputTokens ≤ 10000000) (houtputTokens : outputTokens ≤ 10000000) :
    price.actualCostMicrounits usage ≤ price.maximumCostMicrounits inputTokens outputTokens :=
  roundCost_mono (price.product_le houtput hinput)
    (price.product_lt hinputTokens houtputTokens hinputTokens hinputTokens)

end ModelPrice

end Model

end Aegis
