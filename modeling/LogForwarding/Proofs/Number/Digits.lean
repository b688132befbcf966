import LogForwarding.Number.Binary64
import LogForwarding.Yaml.Scalar
import Mathlib.Algebra.Group.Nat.Defs

/-!
Decimal digits of natural numbers and the numbers that digits spell.
-/

namespace LogForwarding

namespace Yaml

theorem isDigit_iff {c : Char} : c.isDigit ↔ '0' ≤ c ∧ c ≤ '9' := by
  simp only [Char.isDigit, Bool.and_eq_true, decide_eq_true_eq]
  exact Iff.rfl

theorem digitIn_ten (c : Char) :
    digitIn 10 c = if c.isDigit then some (c.toNat - '0'.toNat) else none := by
  have hle (d e : Char) : d ≤ e ↔ d.toNat ≤ e.toNat := Iff.rfl
  have hvalues : '0'.toNat = 48 ∧ '9'.toNat = 57 ∧ 'a'.toNat = 97 ∧ 'A'.toNat = 65 := by decide
  rw [digitIn, Bytes.hexDigitValue]
  by_cases hdigit : '0' ≤ c ∧ c ≤ '9'
  · rw [if_pos hdigit, if_pos (isDigit_iff.mpr hdigit), Option.filter_some, if_pos]
    simp only [hle, hvalues, decide_eq_true_eq] at hdigit ⊢
    omega
  · rw [if_neg hdigit, if_neg (mt isDigit_iff.mp hdigit)]
    split
    · rw [Option.filter_some, if_neg]
      simp
    split
    · rw [Option.filter_some, if_neg]
      simp
    · rfl

theorem ofDigitsIn_ten {digits : List Char} (hne : digits ≠ [])
    (hdigits : ∀ c ∈ digits, c.isDigit) :
    ofDigitsIn 10 digits = some (Nat.ofDigitChars 10 digits 0) := by
  rw [ofDigitsIn, if_neg hne]
  clear hne
  generalize 0 = n
  induction digits generalizing n with
  | nil => rfl
  | cons c rest ih =>
      obtain ⟨hc, hothers⟩ := List.forall_mem_cons.mp hdigits
      rw [List.foldlM_cons, digitIn_ten, if_pos hc, Nat.ofDigitChars_cons, Nat.mul_comm 10 n]
      exact ih hothers _

/-- A text with another character in it spells no number. -/
theorem ofDigitsIn_ten_eq_none {text : List Char} {c : Char} (hmem : c ∈ text)
    (hc : c.isDigit = false) : ofDigitsIn 10 text = none := by
  rw [ofDigitsIn, if_neg (List.ne_nil_of_mem hmem)]
  generalize 0 = n
  induction hmem generalizing n with
  | head rest =>
      rw [List.foldlM_cons, digitIn_ten, hc]
      rfl
  | tail d _ ih =>
      rw [List.foldlM_cons]
      cases (digitIn 10 d).map (n * 10 + ·) with
      | none => rfl
      | some next => exact ih next

end Yaml

namespace Decimal

theorem isDigit_of_mem {n : Nat} {c : Char} (hmem : c ∈ Nat.toDigits 10 n) : c.isDigit :=
  Nat.isDigit_of_mem_toDigits (by decide) (by decide) hmem

theorem ofDigitsIn_toDigits (n : Nat) : Yaml.ofDigitsIn 10 (Nat.toDigits 10 n) = some n := by
  rw [Yaml.ofDigitsIn_ten Nat.toDigits_ne_nil fun c hmem => isDigit_of_mem hmem,
    Nat.ofDigitChars_ten_toDigits]

/-- The digits of a positive number begin with none that could be left out. -/
theorem toDigits_begins {n : Nat} (hn : n ≠ 0) :
    ∃ c rest, Nat.toDigits 10 n = c :: rest ∧ c ≠ '0' := by
  induction n using Nat.strongRecOn with
  | ind n ih =>
      by_cases hsmall : n < 10
      · have hfirst : ∀ m < 10, m ≠ 0 → Nat.digitChar m ≠ '0' := by decide
        exact ⟨_, [], Nat.toDigits_of_lt_base hsmall, hfirst n hsmall hn⟩
      · obtain ⟨c, rest, heq, hc⟩ := ih (n / 10) (by omega) (by omega)
        refine ⟨c, rest ++ [(n % 10).digitChar], ?_, hc⟩
        rw [Nat.toDigits_of_base_le (by decide) (Nat.le_of_not_lt hsmall), heq, List.cons_append]

/-- A positive number lies between two powers of ten. -/
theorem digitCount_bounds {n : Nat} (hn : n ≠ 0) :
    10 ^ (Binary64.digitCount n - 1) ≤ n ∧ n < 10 ^ Binary64.digitCount n := by
  have hlength : 0 < (Nat.toDigits 10 n).length := Nat.length_toDigits_pos
  rw [Binary64.digitCount, if_neg hn]
  refine ⟨Nat.le_of_not_lt fun hlt => ?_,
    (Nat.length_toDigits_le_iff (by decide) hlength).mp (Nat.le_refl _)⟩
  by_cases hone : (Nat.toDigits 10 n).length = 1
  · rw [hone] at hlt
    omega
  · have hshort := (Nat.length_toDigits_le_iff (by decide) (by omega)).mpr hlt
    omega

end Decimal

end LogForwarding
