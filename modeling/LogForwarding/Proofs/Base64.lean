import LogForwarding.Bytes.Base64
import Mathlib.Data.List.Basic

/-!
Base64 text and bytes tell each other: what is written is read back, and nothing but what is written
is read.  Three bytes and four digits are the same number, and a last group of one or two bytes fills
its last digit with zeros.
-/

namespace LogForwarding.Base64

/-! ### Digits -/

theorem value_digit : ∀ {n : Nat}, n < 64 → value (digit n) = some n := by
  decide

theorem digit_ne_pad : ∀ {n : Nat}, n < 64 → digit n ≠ '=' := by
  decide

/-- The digits are characters of ASCII. -/
theorem toNat_lt_of_value {c : Char} {n : Nat} (hvalue : value c = some n) : c.toNat < 128 := by
  have hle (high : Char) (hhigh : c ≤ high) : c.toNat ≤ high.toNat := hhigh
  unfold value at hvalue
  split at hvalue
  case isTrue hupper => exact Nat.lt_of_le_of_lt (hle 'Z' hupper.2) (by decide)
  split at hvalue
  case isTrue hlower => exact Nat.lt_of_le_of_lt (hle 'z' hlower.2) (by decide)
  split at hvalue
  case isTrue hnumeral => exact Nat.lt_of_le_of_lt (hle '9' hnumeral.2) (by decide)
  split at hvalue
  case isTrue hplus => subst hplus; decide
  split at hvalue
  case isTrue hslash => subst hslash; decide
  cases hvalue

/-- A value has no other digit than its own. -/
theorem eq_digit_of_value {c : Char} {n : Nat} (hvalue : value c = some n) :
    n < 64 ∧ c = digit n := by
  have hascii : ∀ code < 128, ∀ n ∈ value (Char.ofNat code), n < 64 ∧ Char.ofNat code = digit n := by
    decide
  have hdigit := hascii c.toNat (toNat_lt_of_value hvalue)
  rw [Char.ofNat_toNat] at hdigit
  exact hdigit n hvalue

theorem value_eq_some_iff {c : Char} {n : Nat} : value c = some n ↔ n < 64 ∧ c = digit n :=
  ⟨eq_digit_of_value, by rintro ⟨hn, rfl⟩; exact value_digit hn⟩

/-! ### Groups -/

/-- A group that ends with a digit stands for three bytes. -/
theorem decodeDigits_cons {a b c d : Char} {rest : List Char} (hpad : d ≠ '=') :
    decodeDigits (a :: b :: c :: d :: rest) = do
      let n := (((← value a) * 64 + (← value b)) * 64 + (← value c)) * 64 + (← value d)
      let bytes ← decodeDigits rest
      return [UInt8.ofNat (n / 65536), UInt8.ofNat (n / 256 % 256), UInt8.ofNat (n % 256)] ++
        bytes := by
  rw [decodeDigits]
  all_goals simp [hpad]

/-- Bytes are read back from their digits. -/
theorem decodeDigits_encodeDigits (bytes : Bytes) :
    decodeDigits (encodeDigits bytes) = some bytes := by
  fun_induction encodeDigits bytes with
  | case1 => rfl
  | case2 a n =>
      -- The digits of a short group are those of its bytes with zeros behind them.
      have ha : n < 256 := a.toNat_lt
      have hnumber : n / 4 * 64 + n % 4 * 16 = n * 16 := by omega
      have hspare : n * 16 % 16 = 0 := by omega
      have hbyte : n * 16 / 16 = a.toNat := by omega
      rw [decodeDigits, value_digit (by omega), value_digit (by omega)]
      simp only [Option.bind_eq_bind, Option.bind_some, hnumber, hspare, hbyte, if_true,
        UInt8.ofNat_toNat]
  | case3 a b n =>
      have ha := a.toNat_lt
      have hb := b.toNat_lt
      have hnumber : (n / 1024 * 64 + n / 16 % 64) * 64 + n % 16 * 4 = n * 4 := by omega
      have hspare : n * 4 % 4 = 0 := by omega
      have hfirst : n * 4 / 1024 = a.toNat := by omega
      have hsecond : n * 4 / 4 % 256 = b.toNat := by omega
      rw [decodeDigits, value_digit (by omega), value_digit (by omega), value_digit (by omega)]
      · simp only [Option.bind_eq_bind, Option.bind_some, hnumber, hspare, hfirst, hsecond,
          if_true, UInt8.ofNat_toNat]
      · exact digit_ne_pad (by omega)
  | case4 a b c rest n ih =>
      have ha := a.toNat_lt
      have hb := b.toNat_lt
      have hc := c.toNat_lt
      have hnumber : ((n / 262144 * 64 + n / 4096 % 64) * 64 + n / 64 % 64) * 64 + n % 64 = n := by
        omega
      have hfirst : n / 65536 = a.toNat := by omega
      have hsecond : n / 256 % 256 = b.toNat := by omega
      have hthird : n % 256 = c.toNat := by omega
      rw [decodeDigits_cons (digit_ne_pad (by omega)), value_digit (by omega),
        value_digit (by omega), value_digit (by omega), value_digit (by omega), ih]
      simp only [Option.bind_eq_bind, Option.bind_some, hnumber, hfirst, hsecond, hthird,
        UInt8.ofNat_toNat]
      rfl

/-- Only the digits of bytes are read. -/
theorem eq_encodeDigits_of_decodeDigits {digits : List Char} {bytes : Bytes}
    (hread : decodeDigits digits = some bytes) : digits = encodeDigits bytes := by
  fun_induction decodeDigits digits generalizing bytes with
  | case1 => cases hread; rfl
  | case2 a b =>
      simp only [bind, Option.bind_eq_some_iff, value_eq_some_iff] at hread
      obtain ⟨i, ⟨hi, rfl⟩, j, ⟨hj, rfl⟩, hread⟩ := hread
      split at hread
      case isFalse => cases hread
      case isTrue hspare =>
        cases hread
        have hfirst : (i * 64 + j) / 16 % 2 ^ 8 / 4 = i := by omega
        have hsecond : (i * 64 + j) / 16 % 2 ^ 8 % 4 * 16 = j := by omega
        simp only [encodeDigits, UInt8.toNat_ofNat', hfirst, hsecond]
  | case3 a b c =>
      simp only [bind, Option.bind_eq_some_iff, value_eq_some_iff] at hread
      obtain ⟨i, ⟨hi, rfl⟩, j, ⟨hj, rfl⟩, k, ⟨hk, rfl⟩, hread⟩ := hread
      split at hread
      case isFalse => cases hread
      case isTrue hspare =>
        cases hread
        simp only [encodeDigits, UInt8.toNat_ofNat', List.cons.injEq, and_true]
        refine ⟨congrArg digit ?_, congrArg digit ?_, congrArg digit ?_⟩ <;> omega
  | case4 a b c d rest hone htwo ih =>
      simp only [bind, Option.bind_eq_some_iff, value_eq_some_iff] at hread
      obtain ⟨i, ⟨hi, rfl⟩, j, ⟨hj, rfl⟩, k, ⟨hk, rfl⟩, l, ⟨hl, rfl⟩, others, hothers, hread⟩ :=
        hread
      cases hread
      simp only [List.cons_append, List.nil_append, encodeDigits, UInt8.toNat_ofNat', ← ih hothers,
        List.cons.injEq, and_true]
      refine ⟨congrArg digit ?_, congrArg digit ?_, congrArg digit ?_, congrArg digit ?_⟩ <;> omega
  | case5 => cases hread

/-- Only what is written is read. -/
theorem decode?_eq_some_iff {text : String} {bytes : Bytes} :
    decode? text = some bytes ↔ text = encode bytes := by
  rw [decode?, encode]
  constructor
  · intro hread
    rw [← eq_encodeDigits_of_decodeDigits hread, String.ofList_toList]
  · rintro rfl
    rw [String.toList_ofList, decodeDigits_encodeDigits]

end LogForwarding.Base64
