import Mathlib.Algebra.Order.Field.Power
import Mathlib.Data.Rat.Cast.Order
import Mathlib.Tactic.FieldSimp
import Mathlib.Tactic.Linarith
import Mathlib.Tactic.NormNum
import Mathlib.Tactic.Positivity
import Mathlib.Tactic.Ring
import LogForwarding.Proofs.Number.Digits

/-!
Each number of 64 bits has an interval of rationals around it, and whatever lies in the interval is
rounded to the number.
-/

namespace LogForwarding.Binary64

/-! ### Fields -/

theorem leadingBit_eq : leadingBit = 4503599627370496 := rfl

theorem cast_leadingBit : (leadingBit : ℚ) = 2 ^ (52 : ℤ) := by
  norm_num [leadingBit_eq]

theorem signBit_eq : signBit = 9223372036854775808 := rfl

/-- A number is what its fields make. -/
theorem ofFields_fields (x : Binary64) :
    ofFields x.isNegative (x.exponentField * leadingBit + x.fractionField) = x := by
  obtain ⟨bits⟩ := x
  have hbits := bits.toNat_lt
  have hsign : isNegative ⟨bits⟩ ↔ signBit ≤ bits.toNat := decide_eq_true_iff
  have hsum : (if isNegative ⟨bits⟩ then signBit else 0) +
      (exponentField ⟨bits⟩ * leadingBit + fractionField ⟨bits⟩) = bits.toNat := by
    rw [exponentField, fractionField]
    simp only [hsign, leadingBit_eq, signBit_eq]
    split <;> omega
  rw [ofFields, hsum, UInt64.ofNat_toNat]

theorem fractionField_lt (x : Binary64) : x.fractionField < leadingBit :=
  Nat.mod_lt _ (by decide)

theorem exponentField_lt {x : Binary64} (hfinite : x.isFinite) : x.exponentField < 2047 := by
  have hlt : x.exponentField < 2048 := Nat.mod_lt _ (by decide)
  have hne : x.exponentField ≠ 2047 := of_decide_eq_true hfinite
  omega

/-- The exponent of the last place of the mantissa. -/
def place (x : Binary64) : Int :=
  x.shift - 1074

/-- The rationals that are rounded to a positive number, the ends of the interval only if the
mantissa is even. -/
structure Covers (x : Binary64) (v : ℚ) : Prop where
  low : x.quarters.1 * (2 : ℚ) ^ (x.place - 2) ≤ v
  high : v ≤ x.quarters.2.2 * (2 : ℚ) ^ (x.place - 2)
  strict : x.mantissa % 2 = 1 →
    x.quarters.1 * (2 : ℚ) ^ (x.place - 2) < v ∧ v < x.quarters.2.2 * (2 : ℚ) ^ (x.place - 2)

/-! ### Rounding a quotient -/

theorem roundHalfEven_eq {num den m : Nat} (hlow : 2 * m * den ≤ 2 * num + den)
    (hhigh : 2 * num ≤ (2 * m + 1) * den) (hden : 0 < den)
    (hstrict : m % 2 = 1 → 2 * m * den < 2 * num + den ∧ 2 * num < (2 * m + 1) * den) :
    roundHalfEven num den = m := by
  have hsplit : num = num / den * den + num % den := by
    rw [Nat.mul_comm]
    exact (Nat.div_add_mod num den).symm
  have hrest : num % den < den := Nat.mod_lt num hden
  rw [roundHalfEven]
  generalize num / den = q at *
  generalize num % den = r at *
  subst hsplit
  have hle : q ≤ m := by
    have hmul : 2 * q * den ≤ (2 * m + 1) * den := by linarith
    have := Nat.le_of_mul_le_mul_right hmul hden
    omega
  have hge : m ≤ q + 1 := by
    have hmul : 2 * m * den < (2 * q + 3) * den := by linarith
    have := Nat.lt_of_mul_lt_mul_right hmul
    omega
  obtain rfl | rfl : m = q ∨ m = q + 1 := by omega
  · have hupper : 2 * r ≤ den := by linarith
    have hodd (hm : m % 2 = 1) : 2 * r < den := by linarith [(hstrict hm).2]
    split
    · rfl
    · have heven : m % 2 = 0 := by omega
      rw [if_neg (by omega), if_pos heven]
  · have hlower : den ≤ 2 * r := by linarith
    have hodd (hq : q % 2 = 0) : den < 2 * r := by linarith [(hstrict (by omega)).1]
    rw [if_neg (by omega)]
    split
    · rfl
    · have heven : q % 2 ≠ 0 := by omega
      rw [if_neg heven]

/-- An integer power as a quotient of natural ones. -/
theorem zpow_eq_div {base : ℕ} (hbase : 0 < base) (n : Int) :
    (base : ℚ) ^ n = (Nat.pow base n.toNat : ℕ) / (Nat.pow base (-n).toNat : ℕ) := by
  have hne : (base : ℚ) ≠ 0 := by positivity
  simp only [Nat.pow_eq, Nat.cast_pow]
  rw [← zpow_natCast, ← zpow_natCast, ← zpow_sub₀ hne]
  congr 1
  omega

section Quotient

variable {num den : Nat}

theorem fraction_lt_zpow_iff (hden : 0 < den) (n : Int) :
    (num : ℚ) / den < 2 ^ n ↔
      if 0 ≤ n then num < den * Nat.pow 2 n.toNat else num * Nat.pow 2 (-n).toNat < den := by
  have hden' : (0 : ℚ) < den := by exact_mod_cast hden
  have hdown : 0 < Nat.pow 2 (-n).toNat := Nat.two_pow_pos _
  have hpower := zpow_eq_div (show 0 < 2 by decide) n
  rw [Nat.cast_ofNat] at hpower
  rw [hpower, div_lt_div_iff₀ hden' (by exact_mod_cast hdown)]
  split
  · have hzero : (-n).toNat = 0 := by omega
    rw [hzero, Nat.pow_eq, pow_zero, Nat.cast_one, mul_one, mul_comm (Nat.cast _)]
    exact_mod_cast Iff.rfl
  · have hzero : n.toNat = 0 := by omega
    rw [hzero, Nat.pow_eq, Nat.pow_eq, pow_zero, Nat.cast_one, one_mul]
    exact_mod_cast Iff.rfl

/-- A quotient lies between two powers of two. -/
theorem floorLog_bounds (hnum : 0 < num) (hden : 0 < den) :
    (2 : ℚ) ^ floorLog num den ≤ num / den ∧ (num : ℚ) / den < 2 ^ (floorLog num den + 1) := by
  have hden' : (0 : ℚ) < den := by exact_mod_cast hden
  have hnum_low : (2 : ℚ) ^ (Nat.log2 num : Int) ≤ num := by
    exact_mod_cast Nat.log2_self_le hnum.ne'
  have hnum_high : (num : ℚ) < 2 ^ (Nat.log2 num + 1 : Int) := by
    exact_mod_cast Nat.lt_log2_self
  have hden_low : (2 : ℚ) ^ (Nat.log2 den : Int) ≤ den := by
    exact_mod_cast Nat.log2_self_le hden.ne'
  have hden_high : (den : ℚ) < 2 ^ (Nat.log2 den + 1 : Int) := by
    exact_mod_cast Nat.lt_log2_self
  rw [floorLog]
  simp only [← fraction_lt_zpow_iff hden]
  generalize hguess : (Nat.log2 num : Int) - (Nat.log2 den : Int) = guess
  split
  · rename_i hbelow
    refine ⟨?_, by simpa using hbelow⟩
    rw [le_div_iff₀ hden']
    calc (2 : ℚ) ^ (guess - 1) * den ≤ 2 ^ (guess - 1) * 2 ^ (Nat.log2 den + 1 : Int) := by gcongr
      _ = 2 ^ (Nat.log2 num : Int) := by
        rw [← zpow_add₀ (by norm_num)]
        congr 1
        omega
      _ ≤ num := hnum_low
  · rename_i habove
    refine ⟨not_lt.mp habove, ?_⟩
    rw [div_lt_iff₀ hden']
    calc (num : ℚ) < 2 ^ (Nat.log2 num + 1 : Int) := hnum_high
      _ = 2 ^ (guess + 1) * 2 ^ (Nat.log2 den : Int) := by
        rw [← zpow_add₀ (by norm_num)]
        congr 1
        omega
      _ ≤ 2 ^ (guess + 1) * den := by gcongr

/-- A quotient is scaled before it is rounded to an integer. -/
theorem exists_scaled (num : Nat) (hden : 0 < den) (u : Int) :
    ∃ a b : Nat, 0 < b ∧ roundAt num den u = roundHalfEven a b ∧
      (num : ℚ) / den = a / b * 2 ^ u := by
  refine ⟨num * Nat.pow 2 (-u).toNat, den * Nat.pow 2 u.toNat,
    Nat.mul_pos hden (Nat.two_pow_pos _), ?_, ?_⟩
  · have hone : Nat.pow 2 0 = 1 := rfl
    rw [roundAt]
    split
    · have hzero : (-u).toNat = 0 := by omega
      rw [hzero, hone, mul_one]
    · have hzero : u.toNat = 0 := by omega
      rw [hzero, hone, mul_one]
  · have hpower := zpow_eq_div (show 0 < 2 by decide) u
    rw [Nat.cast_ofNat] at hpower
    have hden' : (den : ℚ) ≠ 0 := by exact_mod_cast hden.ne'
    have hup : (Nat.pow 2 u.toNat : ℚ) ≠ 0 := by
      exact_mod_cast (Nat.two_pow_pos _).ne'
    have hdown : (Nat.pow 2 (-u).toNat : ℚ) ≠ 0 := by
      exact_mod_cast (Nat.two_pow_pos _).ne'
    rw [hpower]
    push_cast
    field_simp

/-- Rounding to multiples of a power of two. -/
theorem roundAt_eq {u : Int} {m : Nat} (hden : 0 < den)
    (hlow : (m - 1 / 2 : ℚ) * 2 ^ u ≤ num / den) (hhigh : (num : ℚ) / den ≤ (m + 1 / 2) * 2 ^ u)
    (hstrict : m % 2 = 1 →
      (m - 1 / 2 : ℚ) * 2 ^ u < num / den ∧ (num : ℚ) / den < (m + 1 / 2) * 2 ^ u) :
    roundAt num den u = m := by
  obtain ⟨a, b, hb, hround, hscale⟩ := exists_scaled num hden u
  have hb' : (0 : ℚ) < b := by exact_mod_cast hb
  have hunit : (0 : ℚ) < 2 ^ u := by positivity
  rw [hscale] at hlow hhigh hstrict
  have hlow' := le_of_mul_le_mul_right hlow hunit
  have hhigh' := le_of_mul_le_mul_right hhigh hunit
  rw [le_div_iff₀ hb'] at hlow'
  rw [div_le_iff₀ hb'] at hhigh'
  rw [hround]
  refine roundHalfEven_eq ?_ ?_ hb fun hodd => ?_
  · have : (2 * m * b : ℚ) ≤ 2 * a + b := by linarith
    exact_mod_cast this
  · have : (2 * a : ℚ) ≤ (2 * m + 1) * b := by linarith
    exact_mod_cast this
  · obtain ⟨hlow, hhigh⟩ := hstrict hodd
    have hlow' := lt_of_mul_lt_mul_right hlow hunit.le
    have hhigh' := lt_of_mul_lt_mul_right hhigh hunit.le
    rw [lt_div_iff₀ hb'] at hlow'
    rw [div_lt_iff₀ hb'] at hhigh'
    constructor
    · have : (2 * m * b : ℚ) < 2 * a + b := by linarith
      exact_mod_cast this
    · have : (2 * a : ℚ) < (2 * m + 1) * b := by linarith
      exact_mod_cast this

/-- The last place of a quotient follows from two powers of two around it. -/
theorem floorLog_eq {e : Int} (hnum : 0 < num) (hden : 0 < den) (hlow : (2 : ℚ) ^ e ≤ num / den)
    (hhigh : (num : ℚ) / den < 2 ^ (e + 1)) : floorLog num den = e := by
  obtain ⟨hfloor, hceil⟩ := floorLog_bounds hnum hden
  have hle : floorLog num den < e + 1 :=
    (zpow_lt_zpow_iff_right₀ (by norm_num)).mp (hfloor.trans_lt hhigh)
  have hge : e < floorLog num den + 1 :=
    (zpow_lt_zpow_iff_right₀ (by norm_num)).mp (hlow.trans_lt hceil)
  omega

end Quotient

/-! ### Rounding to a number -/

section Interval

variable {x : Binary64} {v : ℚ}

theorem mantissa_pos (hzero : x.isZero = false) : 0 < x.mantissa := by
  have hfields : ¬ (x.exponentField = 0 ∧ x.fractionField = 0) := of_decide_eq_false hzero
  rw [mantissa]
  split
  · omega
  · exact Nat.add_pos_right _ (by decide)

theorem mantissa_lt (x : Binary64) : x.mantissa < 2 * leadingBit := by
  have hfraction := x.fractionField_lt
  rw [mantissa]
  split <;> omega

/-- The magnitude of a number. -/
def magnitude (x : Binary64) : ℚ :=
  x.mantissa * (2 : ℚ) ^ x.place

theorem zpow_quarter (n : Int) : (2 : ℚ) ^ (n - 2) = 2 ^ n / 4 := by
  rw [zpow_sub₀ (by norm_num)]
  norm_num

theorem quarters_low (hzero : x.isZero = false) :
    (x.quarters.1 : ℚ) =
      4 * x.mantissa - if x.fractionField = 0 ∧ 1 < x.exponentField then 1 else 2 := by
  have hmantissa := mantissa_pos hzero
  have hle : (if x.fractionField = 0 ∧ 1 < x.exponentField then 1 else 2) ≤ 4 * x.mantissa := by
    split <;> omega
  rw [quarters, Nat.cast_sub hle]
  push_cast
  rfl

theorem quarters_high (x : Binary64) : (x.quarters.2.2 : ℚ) = 4 * x.mantissa + 2 := by
  rw [quarters]
  push_cast
  rfl

/-- No more than half of a unit is covered on either side. -/
theorem Covers.bounds (hcovers : Covers x v) (hzero : x.isZero = false) :
    (x.mantissa - 1 / 2 : ℚ) * 2 ^ x.place ≤ v ∧ v ≤ (x.mantissa + 1 / 2) * 2 ^ x.place ∧
      (x.mantissa % 2 = 1 →
        (x.mantissa - 1 / 2 : ℚ) * 2 ^ x.place < v ∧ v < (x.mantissa + 1 / 2) * 2 ^ x.place) := by
  obtain ⟨hlow, hhigh, hstrict⟩ := hcovers
  have hunit : (0 : ℚ) < 2 ^ x.place := by positivity
  have hleast : (x.mantissa - 1 / 2 : ℚ) * 2 ^ x.place ≤
      x.quarters.1 * (2 : ℚ) ^ (x.place - 2) := by
    rw [quarters_low hzero, zpow_quarter]
    split <;> linarith
  have hmost : x.quarters.2.2 * (2 : ℚ) ^ (x.place - 2) = (x.mantissa + 1 / 2) * 2 ^ x.place := by
    rw [quarters_high, zpow_quarter]
    ring
  rw [hmost] at hhigh hstrict
  exact ⟨hleast.trans hlow, hhigh,
    fun hodd => ⟨hleast.trans_lt (hstrict hodd).1, (hstrict hodd).2⟩⟩

/-- The fields of a number from its last place and its mantissa, as rounding puts them together. -/
theorem ofFraction_eq {num den m : Nat} {u : Int} (hnum : 0 < num) (hden : 0 < den)
    (hfinite : x.isFinite) (hplace : max (floorLog num den - 52) (-1074) = u)
    (hround : roundAt num den u = m)
    (hfield : (if m < leadingBit then m else m - leadingBit + (u + 1075).toNat * leadingBit) =
      x.exponentField * leadingBit + x.fractionField) :
    ofFraction x.isNegative num den = x := by
  have hexponent := exponentField_lt hfinite
  have hfraction := x.fractionField_lt
  have hbelow : ¬ 2047 * leadingBit ≤ x.exponentField * leadingBit + x.fractionField := by
    rw [leadingBit_eq] at *
    omega
  rw [ofFraction, if_neg (by omega)]
  simp only [hplace, hround, hfield, if_neg hbelow]
  exact ofFields_fields x

theorem mantissa_of_shift (hshift : x.shift ≠ 0) :
    1 < x.exponentField ∧ x.mantissa = x.fractionField + leadingBit := by
  have hexponent : 1 < x.exponentField := by
    rw [shift] at hshift
    omega
  exact ⟨hexponent, if_neg (by omega)⟩

/-- A quotient that is covered from the binade below stands just below a power of two. -/
theorem Covers.below_power (hcovers : Covers x v) (hshift : x.shift ≠ 0)
    (hbelow : v < (2 : ℚ) ^ (52 + x.place)) :
    x.fractionField = 0 ∧ (2 * leadingBit - 1 / 2 : ℚ) * 2 ^ (x.place - 1) ≤ v := by
  obtain ⟨hexponent, hmantissa⟩ := mantissa_of_shift hshift
  have hunit : (0 : ℚ) < 2 ^ x.place := by positivity
  have hzero : x.isZero = false := decide_eq_false (by omega)
  have hlow := hcovers.low
  rw [zpow_add₀ (by norm_num)] at hbelow
  rw [quarters_low hzero, zpow_quarter, hmantissa] at hlow
  have hfraction : x.fractionField = 0 := by
    by_contra hne
    have hone : (1 : ℚ) ≤ x.fractionField := by exact_mod_cast Nat.one_le_iff_ne_zero.mpr hne
    have hmore := mul_le_mul_of_nonneg_right hone hunit.le
    rw [if_neg (by tauto)] at hlow
    push_cast [cast_leadingBit] at hlow
    linarith
  refine ⟨hfraction, ?_⟩
  rw [if_pos ⟨hfraction, hexponent⟩, hfraction] at hlow
  rw [zpow_sub_one₀ (by norm_num)]
  push_cast at hlow
  linarith

/-- A quotient that a number covers is positive. -/
theorem Covers.num_pos {num den : Nat} (hcovers : Covers x (num / den))
    (hzero : x.isZero = false) : 0 < num := by
  obtain ⟨hlow, -, -⟩ := hcovers.bounds hzero
  have hunit : (0 : ℚ) < 2 ^ x.place := by positivity
  have hleast : (1 : ℚ) ≤ x.mantissa := by exact_mod_cast mantissa_pos hzero
  by_contra hnot
  obtain rfl : num = 0 := by omega
  have hnone : ((0 : ℕ) / den : ℚ) = 0 := by simp
  rw [hnone] at hlow
  nlinarith

/-- The last place of a quotient that is covered from the binade of the number. -/
theorem Covers.place_eq {num den : Nat} (hcovers : Covers x (num / den)) (hden : 0 < den)
    (hzero : x.isZero = false) (hbinade : x.shift = 0 ∨ (2 : ℚ) ^ (52 + x.place) ≤ num / den) :
    max (floorLog num den - 52) (-1074) = x.place := by
  obtain ⟨hfloor, hceil⟩ := floorLog_bounds (hcovers.num_pos hzero) hden
  obtain ⟨-, hhigh, -⟩ := hcovers.bounds hzero
  have hunit : (0 : ℚ) < 2 ^ x.place := by positivity
  have hmost : (x.mantissa : ℚ) + 1 ≤ 2 ^ (53 : ℤ) := by
    exact_mod_cast x.mantissa_lt
  have hle : floorLog num den < 53 + x.place := by
    refine (zpow_lt_zpow_iff_right₀ (by norm_num : (1 : ℚ) < 2)).mp (hfloor.trans_lt ?_)
    calc (num : ℚ) / den ≤ (x.mantissa + 1 / 2) * 2 ^ x.place := hhigh
      _ < 2 ^ (53 : ℤ) * 2 ^ x.place := by gcongr; linarith
      _ = 2 ^ (53 + x.place) := (zpow_add₀ (by norm_num) _ _).symm
  rcases hbinade with hshift | hbinade
  · simp only [place, hshift] at hle ⊢
    omega
  · have hge : 52 + x.place < floorLog num den + 1 :=
      (zpow_lt_zpow_iff_right₀ (by norm_num)).mp (hbinade.trans_lt hceil)
    simp only [place] at hle hge ⊢
    omega

/-- What a number covers in its own binade is rounded to its mantissa. -/
theorem ofFraction_binade {num den : Nat} (hden : 0 < den) (hfinite : x.isFinite)
    (hzero : x.isZero = false) (hcovers : Covers x (num / den))
    (hbinade : x.shift = 0 ∨ (2 : ℚ) ^ (52 + x.place) ≤ num / den) :
    ofFraction x.isNegative num den = x := by
  obtain ⟨hlow, hhigh, hstrict⟩ := hcovers.bounds hzero
  have hunits : (x.place + 1075).toNat = x.shift + 1 := by
    rw [place]
    omega
  refine ofFraction_eq (hcovers.num_pos hzero) hden hfinite (hcovers.place_eq hden hzero hbinade)
    (roundAt_eq hden hlow hhigh hstrict) ?_
  rw [hunits, mantissa, shift]
  by_cases hsubnormal : x.exponentField = 0
  · have hfraction := x.fractionField_lt
    rw [if_pos hsubnormal, if_pos hfraction, hsubnormal]
    omega
  · obtain ⟨e, he⟩ := Nat.exists_eq_add_of_le' (Nat.one_le_iff_ne_zero.mpr hsubnormal)
    rw [if_neg hsubnormal, if_neg (by omega), he]
    simp only [leadingBit_eq]
    omega

/-- What a number covers below its binade is rounded up to the power of two at which the binade
begins. -/
theorem ofFraction_below {num den : Nat} (hden : 0 < den) (hfinite : x.isFinite)
    (hzero : x.isZero = false) (hcovers : Covers x (num / den)) (hshift : x.shift ≠ 0)
    (hbelow : (num : ℚ) / den < 2 ^ (52 + x.place)) : ofFraction x.isNegative num den = x := by
  obtain ⟨hfraction, hedge⟩ := hcovers.below_power hshift hbelow
  obtain ⟨hexponent, -⟩ := mantissa_of_shift hshift
  have hnum := hcovers.num_pos hzero
  have hhalf : (0 : ℚ) < 2 ^ (x.place - 1) := by positivity
  have hpower (n : ℤ) : (2 : ℚ) ^ (n + x.place) = 2 ^ (n + 1) * 2 ^ (x.place - 1) := by
    rw [← zpow_add₀ (by norm_num)]
    congr 1
    omega
  have hbinade_low : (2 : ℚ) ^ (51 + x.place) ≤ num / den := by
    refine le_trans ?_ hedge
    rw [hpower, cast_leadingBit]
    gcongr
    norm_num
  have hbinade_high : (num : ℚ) / den < 2 ^ (51 + x.place + 1) := by
    have hexponents : 51 + x.place + 1 = 52 + x.place := by omega
    rwa [hexponents]
  have hplace : max (floorLog num den - 52) (-1074) = x.place - 1 := by
    rw [floorLog_eq hnum hden hbinade_low hbinade_high, place]
    omega
  have hround : roundAt num den (x.place - 1) = 2 * leadingBit := by
    refine roundAt_eq hden ?_ ?_ fun hodd => ?_
    · push_cast
      exact hedge
    · refine hbelow.le.trans ?_
      rw [hpower]
      push_cast [cast_leadingBit]
      gcongr
      norm_num
    · omega
  have hunits : (x.place - 1 + 1075).toNat = x.shift := by
    rw [place]
    omega
  refine ofFraction_eq hnum hden hfinite hplace hround ?_
  rw [hunits, hfraction, if_neg (by decide), shift]
  obtain ⟨e, he⟩ := Nat.exists_eq_add_of_le' hexponent.le
  rw [he]
  simp only [leadingBit_eq]
  omega

/-- Whatever a number covers is rounded to it. -/
theorem ofFraction_covers {num den : Nat} (hden : 0 < den) (hfinite : x.isFinite)
    (hzero : x.isZero = false) (hcovers : Covers x (num / den)) :
    ofFraction x.isNegative num den = x := by
  by_cases hbinade : x.shift = 0 ∨ (2 : ℚ) ^ (52 + x.place) ≤ num / den
  · exact ofFraction_binade hden hfinite hzero hcovers hbinade
  · obtain ⟨hshift, hbelow⟩ := not_or.mp hbinade
    exact ofFraction_below hden hfinite hzero hcovers hshift (not_le.mp hbelow)

/-- A positive number lies between two powers of ten, as `Decimal.digitCount_bounds` says. -/
theorem digitCount_zpow {n : ℕ} (hn : 0 < n) :
    (10 : ℚ) ^ (digitCount n - 1 : ℤ) ≤ n ∧ (n : ℚ) < 10 ^ (digitCount n : ℤ) := by
  obtain ⟨hlow, hhigh⟩ := Decimal.digitCount_bounds hn.ne'
  have hcount : 0 < digitCount n := by
    by_contra hnot
    rw [Nat.eq_zero_of_not_pos hnot, pow_zero] at hhigh
    omega
  rw [← Nat.cast_pred hcount]
  exact ⟨by exact_mod_cast hlow, by exact_mod_cast hhigh⟩

theorem two_zpow_le (n : ℕ) : (2 : ℚ) ^ (3 * n : ℤ) ≤ 10 ^ (n : ℤ) := by
  rw [zpow_mul, zpow_natCast, zpow_natCast]
  gcongr
  norm_num

/-- Half of the last unit is more than is left out below the smallest decimal numbers. -/
theorem ten_zpow_le_half (x : Binary64) : (10 : ℚ) ^ (-400 : ℤ) ≤ 1 / 2 * 2 ^ x.place := by
  calc (10 : ℚ) ^ (-400 : ℤ) = (10 ^ (400 : ℤ))⁻¹ := zpow_neg 10 400
    _ ≤ (2 ^ (3 * 400 : ℤ))⁻¹ := inv_anti₀ (by positivity) (two_zpow_le 400)
    _ = 2 ^ (-(3 * 400) : ℤ) := (zpow_neg 2 _).symm
    _ ≤ 2 ^ (-1 + x.place) := by
      gcongr
      · norm_num
      · rw [place]
        omega
    _ = 1 / 2 * 2 ^ x.place := by
      rw [zpow_add₀ (by norm_num)]
      norm_num

/-- Decimal numbers that a number covers are neither too small nor too large to be rounded. -/
theorem Covers.size {digits : Nat} {exponent : ℤ} (hfinite : x.isFinite) (hzero : x.isZero = false)
    (hcovers : Covers x (digits * (10 : ℚ) ^ exponent)) :
    0 < digits ∧ -400 ≤ digitCount digits + exponent ∧ digitCount digits + exponent ≤ 400 := by
  obtain ⟨hlow, hhigh, -⟩ := hcovers.bounds hzero
  have hleast : (1 : ℚ) ≤ x.mantissa := by exact_mod_cast mantissa_pos hzero
  have hmost : (x.mantissa : ℚ) + 1 ≤ 2 ^ (53 : ℤ) := by
    exact_mod_cast x.mantissa_lt
  have hexponent := exponentField_lt hfinite
  have hpower : (0 : ℚ) < 10 ^ exponent := by positivity
  have hsmall : (10 : ℚ) ^ (-400 : ℤ) ≤ digits * 10 ^ exponent := by
    calc (10 : ℚ) ^ (-400 : ℤ) ≤ 1 / 2 * 2 ^ x.place := x.ten_zpow_le_half
      _ ≤ (x.mantissa - 1 / 2) * 2 ^ x.place := by gcongr; linarith
      _ ≤ digits * 10 ^ exponent := hlow
  have hlarge : digits * (10 : ℚ) ^ exponent < 10 ^ (400 : ℤ) := by
    calc digits * (10 : ℚ) ^ exponent ≤ (x.mantissa + 1 / 2) * 2 ^ x.place := hhigh
      _ < 2 ^ (53 : ℤ) * 2 ^ x.place := by
        gcongr
        linarith
      _ = 2 ^ (53 + x.place) := (zpow_add₀ (by norm_num) _ _).symm
      _ ≤ 2 ^ (3 * 400 : ℤ) := by
        gcongr
        · norm_num
        · rw [place, shift]
          omega
      _ ≤ 10 ^ (400 : ℤ) := two_zpow_le 400
  have hdigits : 0 < digits := by
    have hpos : (0 : ℚ) < digits * 10 ^ exponent := lt_of_lt_of_le (by positivity) hsmall
    exact_mod_cast pos_of_mul_pos_left hpos hpower.le
  obtain ⟨hlower, hupper⟩ := digitCount_zpow hdigits
  refine ⟨hdigits, ?_, ?_⟩
  · have hlt : (10 : ℚ) ^ (-400 : ℤ) < 10 ^ (digitCount digits + exponent) := by
      rw [zpow_add₀ (by norm_num)]
      exact hsmall.trans_lt (by gcongr)
    exact ((zpow_lt_zpow_iff_right₀ (by norm_num)).mp hlt).le
  · have hlt : (10 : ℚ) ^ (digitCount digits - 1 + exponent) < 10 ^ (400 : ℤ) := by
      rw [zpow_add₀ (by norm_num)]
      exact lt_of_le_of_lt (by gcongr) hlarge
    have := (zpow_lt_zpow_iff_right₀ (by norm_num : (1 : ℚ) < 10)).mp hlt
    omega

/-- Whatever decimal number a number covers is rounded to it. -/
theorem ofDecimal_covers {digits : Nat} {exponent : ℤ} (hfinite : x.isFinite)
    (hzero : x.isZero = false) (hcovers : Covers x (digits * (10 : ℚ) ^ exponent)) :
    ofDecimal x.isNegative digits exponent = x := by
  obtain ⟨hdigits, hsmall, hlarge⟩ := hcovers.size hfinite hzero
  have hpower := zpow_eq_div (show 0 < 10 by decide) exponent
  rw [Nat.cast_ofNat] at hpower
  rw [hpower] at hcovers
  have hone : Nat.pow 10 0 = 1 := rfl
  rw [ofDecimal, if_neg (by omega), if_neg (by omega)]
  split
  · refine ofFraction_covers (by decide) hfinite hzero ?_
    have hzero : (-exponent).toNat = 0 := by omega
    simpa [hzero, hone] using hcovers
  · refine ofFraction_covers (Nat.pow_pos (by decide)) hfinite hzero ?_
    have hzero : exponent.toNat = 0 := by omega
    simpa [hzero, hone, div_eq_mul_inv] using hcovers

end Interval

end LogForwarding.Binary64
