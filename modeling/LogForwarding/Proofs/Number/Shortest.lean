import Mathlib.Data.Nat.Cast.Order.Field
import LogForwarding.Proofs.Number.Rounding

/-!
The shortest decimal digits of a number are found within seventeen of them, and the number covers
what they spell.
-/

namespace LogForwarding.Binary64

variable {x : Binary64} {k : ℤ}

theorem unit_pos (x : Binary64) (k : ℤ) : 0 < x.unit k :=
  Nat.mul_pos (Nat.two_pow_pos _) (Nat.pow_pos (by decide))

theorem scale_mul_zpow (x : Binary64) (k : ℤ) :
    (x.scale k : ℚ) * 10 ^ k = x.unit k * 2 ^ (x.place - 2) := by
  have htwo := zpow_eq_div (show 0 < 2 by decide) (x.place - 2)
  have hten := zpow_eq_div (show 0 < 10 by decide) k
  have hplace : x.place - 2 = (x.shift : ℤ) - 1076 := by
    rw [place]
    omega
  have hneg : -((x.shift : ℤ) - 1076) = 1076 - (x.shift : ℤ) := by omega
  have hhalf : ((Nat.pow 2 (1076 - (x.shift : ℤ)).toNat : ℕ) : ℚ) ≠ 0 := by
    exact_mod_cast (Nat.two_pow_pos _).ne'
  have htenth : ((Nat.pow 10 (-k).toNat : ℕ) : ℚ) ≠ 0 := by
    exact_mod_cast (Nat.pow_pos (by decide)).ne'
  rw [Nat.cast_ofNat, hplace, hneg] at htwo
  rw [Nat.cast_ofNat] at hten
  rw [scale, unit, hplace, htwo, hten, Nat.cast_mul, Nat.cast_mul]
  field_simp

/-- One factor takes quarters of the last unit and multiples of a power of ten to naturals. -/
theorem exists_scaling (x : Binary64) (k : ℤ) :
    ∃ c : ℚ, 0 < c ∧ (∀ n : ℕ, ((n * x.scale k : ℕ) : ℚ) = c * (n * 2 ^ (x.place - 2))) ∧
      ∀ n : ℕ, ((n * x.unit k : ℕ) : ℚ) = c * (n * 10 ^ k) := by
  have hunit : (0 : ℚ) < x.unit k := by exact_mod_cast x.unit_pos k
  have hpower : (0 : ℚ) < 10 ^ k := by positivity
  refine ⟨x.unit k / 10 ^ k, by positivity, fun n => ?_, fun n => ?_⟩
  · have hscale : (x.scale k : ℚ) = x.unit k * 2 ^ (x.place - 2) / 10 ^ k :=
      (eq_div_iff hpower.ne').mpr (x.scale_mul_zpow k)
    rw [Nat.cast_mul, hscale]
    ring
  · rw [Nat.cast_mul]
    field_simp

theorem scale_le_iff (n m : ℕ) :
    n * x.scale k ≤ m * x.unit k ↔ n * (2 : ℚ) ^ (x.place - 2) ≤ m * 10 ^ k := by
  obtain ⟨c, hc, hscale, hunit⟩ := x.exists_scaling k
  rw [← @Nat.cast_le ℚ, hscale, hunit, mul_le_mul_iff_right₀ hc]

theorem le_scale_iff (n m : ℕ) :
    m * x.unit k ≤ n * x.scale k ↔ m * (10 : ℚ) ^ k ≤ n * 2 ^ (x.place - 2) := by
  obtain ⟨c, hc, hscale, hunit⟩ := x.exists_scaling k
  rw [← @Nat.cast_le ℚ, hscale, hunit, mul_le_mul_iff_right₀ hc]

/-- What reads back is what the number covers. -/
theorem readsBack_iff (n : ℕ) : x.readsBack k n ↔ Covers x (n * (10 : ℚ) ^ k) := by
  have hwithin : x.readsBack k n ↔
      if x.mantissa % 2 = 0 then
        x.quarters.1 * x.scale k ≤ n * x.unit k ∧ n * x.unit k ≤ x.quarters.2.2 * x.scale k
      else x.quarters.1 * x.scale k < n * x.unit k ∧ n * x.unit k < x.quarters.2.2 * x.scale k := by
    simp only [readsBack, within, decide_eq_true_eq]
    split <;> simp
  rw [hwithin]
  simp only [← not_le, scale_le_iff, le_scale_iff]
  simp only [not_le]
  split
  · rename_i heven
    exact ⟨fun h => ⟨h.1, h.2, fun hodd => by omega⟩, fun h => ⟨h.low, h.high⟩⟩
  · rename_i hodd
    exact ⟨fun h => ⟨h.1.le, h.2.le, fun _ => h⟩, fun h => h.strict (by omega)⟩

/-- What stands strictly within the interval is covered. -/
theorem covers_of_lt {v : ℚ} (hlow : x.quarters.1 * (2 : ℚ) ^ (x.place - 2) < v)
    (hhigh : v < x.quarters.2.2 * (2 : ℚ) ^ (x.place - 2)) : Covers x v :=
  ⟨hlow.le, hhigh.le, fun _ => ⟨hlow, hhigh⟩⟩

theorem gridPoint_covers {d : ℕ} (hpoint : x.gridPoint k = some d) :
    0 < d ∧ Covers x (d * (10 : ℚ) ^ k) := by
  rw [← readsBack_iff]
  simp only [gridPoint] at hpoint
  split at hpoint
  · rename_i hdown hup
    rw [Bool.and_eq_true, decide_eq_true_eq] at hdown
    obtain rfl := Option.some.inj hpoint
    split_ifs
    · exact ⟨Nat.pos_of_ne_zero hdown.1, hdown.2⟩
    · exact ⟨Nat.succ_pos _, hup⟩
    · exact ⟨Nat.pos_of_ne_zero hdown.1, hdown.2⟩
    · exact ⟨Nat.succ_pos _, hup⟩
  · rename_i hdown _
    rw [Bool.and_eq_true, decide_eq_true_eq] at hdown
    obtain rfl := Option.some.inj hpoint
    exact ⟨Nat.pos_of_ne_zero hdown.1, hdown.2⟩
  · rename_i _ hup
    obtain rfl := Option.some.inj hpoint
    exact ⟨Nat.succ_pos _, hup⟩
  · cases hpoint

theorem magnitude_eq (x : Binary64) :
    x.magnitude = x.quarters.2.1 * (2 : ℚ) ^ (x.place - 2) := by
  rw [magnitude, quarters, zpow_quarter]
  push_cast
  ring

/-- The number lies strictly within the interval. -/
theorem magnitude_within (hzero : x.isZero = false) :
    x.quarters.1 * (2 : ℚ) ^ (x.place - 2) < x.magnitude ∧
      x.magnitude < x.quarters.2.2 * (2 : ℚ) ^ (x.place - 2) := by
  have hunit : (0 : ℚ) < 2 ^ x.place := by positivity
  rw [quarters_low hzero, quarters_high, zpow_quarter, magnitude]
  constructor
  · split <;> linarith
  · linarith

/-- A grid that is finer than the interval is wide has a point in it. -/
theorem gridPoint_ne_none (hzero : x.isZero = false) (hle : (10 : ℚ) ^ k ≤ x.magnitude)
    (hfine : (10 : ℚ) ^ k + x.quarters.1 * (2 : ℚ) ^ (x.place - 2) <
      x.quarters.2.2 * (2 : ℚ) ^ (x.place - 2)) : x.gridPoint k ≠ none := by
  have hpower : (0 : ℚ) < 10 ^ k := by positivity
  obtain ⟨hlow, hhigh⟩ := magnitude_within hzero
  intro hnone
  simp only [gridPoint] at hnone
  obtain ⟨d, hd⟩ : ∃ d, d = x.quarters.2.1 * x.scale k / x.unit k := ⟨_, rfl⟩
  rw [← hd] at hnone
  have hdown : (d * 10 ^ k : ℚ) ≤ x.magnitude := by
    rw [magnitude_eq, ← le_scale_iff, hd]
    exact Nat.div_mul_le_self _ _
  have hup : x.magnitude < (d + 1 : ℕ) * 10 ^ k := by
    rw [magnitude_eq, ← not_le, ← le_scale_iff, hd, not_le]
    exact Nat.lt_mul_of_div_lt (Nat.lt_succ_self _) (x.unit_pos k)
  have hne : d ≠ 0 := by
    rintro rfl
    rw [Nat.zero_add, Nat.cast_one, one_mul] at hup
    exact absurd hle (not_le.mpr hup)
  have hlow_down (hnot : ¬ x.readsBack k d) : (d * 10 ^ k : ℚ) ≤
      x.quarters.1 * (2 : ℚ) ^ (x.place - 2) := by
    by_contra hlt
    exact hnot ((readsBack_iff d).mpr (covers_of_lt (not_le.mp hlt) (hdown.trans_lt hhigh)))
  have hhigh_up (hnot : ¬ x.readsBack k (d + 1)) :
      x.quarters.2.2 * (2 : ℚ) ^ (x.place - 2) ≤ (d + 1 : ℕ) * 10 ^ k := by
    by_contra hlt
    exact hnot ((readsBack_iff _).mpr (covers_of_lt (hlow.trans hup) (not_le.mp hlt)))
  split at hnone
  · cases hnone
  · cases hnone
  · cases hnone
  · rename_i hfirst hsecond
    rw [decide_eq_true hne, Bool.true_and] at hfirst
    have hleast := hlow_down (Bool.eq_false_iff.mp hfirst)
    have hmost := hhigh_up (Bool.eq_false_iff.mp hsecond)
    push_cast at hmost
    linarith

/-- The search ends at a grid with a point in it, if one of the grids that it tries has one. -/
theorem searchGrids_gridPoint {lead : ℤ} {fuel count steps : ℕ} (hsteps : steps < fuel)
    (hpoint : x.gridPoint (lead - (count + steps : ℕ) + 1) ≠ none) :
    x.gridPoint (searchGrids x lead fuel count).2 = some (searchGrids x lead fuel count).1 := by
  induction fuel generalizing count steps with
  | zero => omega
  | succ fuel ih =>
      rw [searchGrids]
      cases hfirst : x.gridPoint (lead - count + 1) with
      | some d => simp [hfirst]
      | none =>
          cases steps with
          | zero => exact absurd hfirst hpoint
          | succ steps =>
              have hless : steps < fuel := by omega
              refine ih hless ?_
              rwa [Nat.succ_add_eq_add_succ]

/-- Leaving out zeros at the end changes the exponent only. -/
theorem dropZeros_eq (fuel d : ℕ) (k : ℤ) (hd : 0 < d) :
    0 < (dropZeros fuel d k).1 ∧
      ((dropZeros fuel d k).1 : ℚ) * 10 ^ (dropZeros fuel d k).2 = d * 10 ^ k := by
  induction fuel generalizing d k with
  | zero => exact ⟨hd, rfl⟩
  | succ fuel ih =>
      rw [dropZeros]
      split
      · rename_i hzero
        obtain ⟨hpos, heq⟩ := ih (d / 10) (k + 1) (by omega)
        refine ⟨hpos, heq.trans ?_⟩
        have hten : ((d / 10 : ℕ) : ℚ) * 10 = d := by
          exact_mod_cast Nat.div_mul_cancel (Nat.dvd_of_mod_eq_zero hzero.2)
        rw [zpow_add_one₀ (by norm_num), ← hten]
        ring
      · exact ⟨hd, rfl⟩

theorem toFraction_eq (x : Binary64) :
    0 < x.toFraction.2 ∧ (x.toFraction.1 : ℚ) / x.toFraction.2 = x.magnitude := by
  have hpower := zpow_eq_div (show 0 < 2 by decide) x.place
  have hone : Nat.pow 2 0 = 1 := rfl
  rw [Nat.cast_ofNat] at hpower
  rw [toFraction, magnitude, hpower, place]
  split
  · have hup : ((x.shift : ℤ) - 1074).toNat = x.shift - 1074 := by omega
    have hdown : (-((x.shift : ℤ) - 1074)).toNat = 0 := by omega
    rw [hup, hdown, hone]
    simp only [zero_lt_one, Nat.cast_mul, Nat.cast_one, div_one, and_self]
  · have hup : ((x.shift : ℤ) - 1074).toNat = 0 := by omega
    have hdown : (-((x.shift : ℤ) - 1074)).toNat = 1074 - x.shift := by omega
    rw [hup, hdown, hone]
    refine ⟨Nat.two_pow_pos _, ?_⟩
    simp [div_eq_mul_inv]

/-- The leading digit of a quotient is that of the quotient scaled up to a natural number. -/
theorem zpow_digitCount_le {num den : ℕ} (n : ℕ) (hden : 0 < den)
    (hsmall : (10 : ℚ) ^ (-n : ℤ) ≤ num / den) :
    (10 : ℚ) ^ ((digitCount (num * Nat.pow 10 n / den) : ℤ) - 1 - n) ≤ num / den := by
  have hscale : (10 : ℚ) ^ (-n : ℤ) * (Nat.pow 10 n : ℕ) = 1 := by
    rw [Nat.pow_eq, Nat.cast_pow, ← zpow_natCast]
    exact zpow_neg_mul_zpow_self n (by norm_num)
  generalize Nat.pow 10 n = scale at *
  have hden' : (0 : ℚ) < den := by exact_mod_cast hden
  have hlarge : (den : ℚ) ≤ num * scale := by
    rw [le_div_iff₀ hden'] at hsmall
    calc (den : ℚ) = 10 ^ (-n : ℤ) * den * scale := by
          rw [mul_right_comm, hscale, one_mul]
      _ ≤ num * scale := by gcongr
  have hdigits : 0 < num * scale / den := Nat.div_pos (by exact_mod_cast hlarge) hden
  calc (10 : ℚ) ^ ((digitCount (num * scale / den) : ℤ) - 1 - n)
      = 10 ^ (-n : ℤ) * 10 ^ ((digitCount (num * scale / den) : ℤ) - 1) := by
        rw [← zpow_add₀ (by norm_num), sub_eq_neg_add _ (n : ℤ)]
    _ ≤ 10 ^ (-n : ℤ) * ((num * scale : ℕ) / den) := by
        gcongr
        exact (digitCount_zpow hdigits).1.trans Nat.cast_div_le
    _ = num / den := by
        rw [Nat.cast_mul, mul_div_assoc', mul_left_comm, hscale, mul_one]

/-- The number has a digit at its leading exponent. -/
theorem leadingExponent_le (hzero : x.isZero = false) :
    (10 : ℚ) ^ x.leadingExponent ≤ x.magnitude := by
  obtain ⟨hden, hmagnitude⟩ := x.toFraction_eq
  have hsmall : (10 : ℚ) ^ (-400 : ℤ) ≤ x.magnitude := by
    have hleast : (1 : ℚ) ≤ x.mantissa := by exact_mod_cast mantissa_pos hzero
    refine x.ten_zpow_le_half.trans ?_
    rw [magnitude]
    gcongr
    linarith
  simp only [leadingExponent]
  rw [← hmagnitude] at hsmall ⊢
  split
  · rename_i hwhole
    exact (digitCount_zpow (Nat.pos_of_ne_zero hwhole)).1.trans Nat.cast_div_le
  · have hlead := zpow_digitCount_le 400 hden hsmall
    have hexponent : (1 : ℤ) + (400 : ℕ) = 401 := rfl
    rw [sub_sub, hexponent] at hlead
    exact hlead

/-- Seventeen digits suffice: their grid is finer than the interval is wide. -/
theorem seventeen_digits (hzero : x.isZero = false) :
    x.gridPoint (x.leadingExponent - 16) ≠ none := by
  have hlead := leadingExponent_le hzero
  have hunit : (0 : ℚ) < 2 ^ x.place := by positivity
  have hstep : (10 : ℚ) ^ (x.leadingExponent - 16) ≤ x.mantissa * 2 ^ x.place / 10 ^ (16 : ℤ) := by
    rw [zpow_sub₀ (by norm_num), ← magnitude]
    exact div_le_div_of_nonneg_right hlead (by positivity)
  refine gridPoint_ne_none hzero (le_trans ?_ hlead) (lt_of_le_of_lt (add_le_add_left hstep _) ?_)
  · gcongr
    · norm_num
    · omega
  · rw [quarters_low hzero, quarters_high, zpow_quarter]
    norm_num
    split
    · rename_i hpower
      have hmantissa : x.mantissa = leadingBit := by
        rw [mantissa, if_neg (by omega), hpower.1, Nat.zero_add]
      rw [hmantissa, leadingBit_eq]
      push_cast
      linarith
    · have hmost : (x.mantissa : ℚ) < 2 * 4503599627370496 := by
        exact_mod_cast x.mantissa_lt
      have hmore := mul_lt_mul_of_pos_right hmost hunit
      linarith

theorem shortest_covers (hzero : x.isZero = false) :
    0 < x.shortest.1 ∧ Covers x (x.shortest.1 * (10 : ℚ) ^ x.shortest.2) := by
  have hpoint : x.gridPoint (x.leadingExponent - (1 + 16 : ℕ) + 1) ≠ none := by
    have hgrid : x.leadingExponent - (1 + 16 : ℕ) + 1 = x.leadingExponent - 16 := by omega
    rw [hgrid]
    exact seventeen_digits hzero
  have hfound := searchGrids_gridPoint (show 16 < 18 by decide) hpoint
  obtain ⟨hpos, hcovers⟩ := gridPoint_covers hfound
  obtain ⟨hpos', heq⟩ := dropZeros_eq 20 _ (searchGrids x x.leadingExponent 18 1).2 hpos
  rw [shortest, if_neg (by rw [hzero]; exact Bool.false_ne_true)]
  exact ⟨hpos', heq ▸ hcovers⟩

end LogForwarding.Binary64
