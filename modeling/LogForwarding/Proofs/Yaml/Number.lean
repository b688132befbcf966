import LogForwarding.Json.Printer
import LogForwarding.Proofs.Number.Shortest
import LogForwarding.Proofs.Yaml.Word
import LogForwarding.Yaml.Scalar

/-!
Numbers are printed as words, and the words are read as the numbers.  A number with a fraction or a
power of ten is read from the digits that were printed, and it covers what they spell.
-/

namespace LogForwarding.Yaml

/-- A text behind the sign of a number. -/
def signed (negative : Bool) (body : List Char) : List Char :=
  if negative then '-' :: body else body

/-- The characters of a number in decimal. -/
def isNumeralChar (c : Char) : Bool :=
  c.isDigit ∨ c ∈ ['.', 'e', '+', '-']

/-- A number without its sign: it begins with a digit, and a zero in front of another digit is not
all that stands there. -/
structure IsUnsigned (body : List Char) : Prop where
  begins : ∃ c more, body = c :: more ∧ c.isDigit
  chars : ∀ c ∈ body, isNumeralChar c
  leading : ∀ c more, body = '0' :: c :: more → ¬ (c :: more).all Char.isDigit

theorem isNumeralChar_of_isDigit {c : Char} (hc : c.isDigit) : isNumeralChar c :=
  decide_eq_true (Or.inl hc)

theorem ne_of_numeral {c other : Char} (hc : isNumeralChar c)
    (hother : isNumeralChar other = false) : c ≠ other := by
  rintro rfl
  rw [hc] at hother
  cases hother

theorem isWordChar_of_numeral {c : Char} (hc : isNumeralChar c) : isWordChar c := by
  simp only [isNumeralChar, isWordChar, Char.isAlphanum, List.mem_cons, List.not_mem_nil, or_false,
    decide_eq_true_eq, Bool.or_eq_true] at hc ⊢
  rcases hc with hc | rfl | rfl | rfl | rfl
  · exact Or.inl (Or.inr hc)
  all_goals decide

/-- Whether a text begins as numbers do. -/
def beginsNumber : List Char → Bool
  | '-' :: c :: _ => c.isDigit
  | c :: _ => c.isDigit
  | [] => false

theorem notMem_of_beginsNumber {text : String} (htext : beginsNumber text.toList)
    {words : List String} (hwords : words.all fun word => !beginsNumber word.toList) :
    text ∉ words := by
  intro hmem
  have hword := List.all_eq_true.mp hwords text hmem
  rw [htext] at hword
  cases hword

/-- A text that begins as numbers do stands for no value but a number or itself. -/
theorem plainValue_of_beginsNumber {text : String} (htext : beginsNumber text.toList) :
    plainValue text =
      match jsonOfInt text with
      | some value => value
      | none =>
          if hasLeadingZero text.toList then some (.str text)
          else
            match floatOfText text with
            | some x => some (jsonOfFloat x)
            | none => some (.str text) := by
  have hnull : ¬ (text = "" ∨ isNullWord text) := by
    have hwords : text ∉ ["", "~", "null", "Null", "NULL"] := notMem_of_beginsNumber htext rfl
    rw [List.mem_cons] at hwords
    simpa [isNullWord] using hwords
  have hbool : boolOfWord text = none := by
    rw [boolOfWord, if_neg (notMem_of_beginsNumber htext rfl),
      if_neg (notMem_of_beginsNumber htext rfl)]
  rw [plainValue, if_neg hnull]
  split
  · rename_i hsome
    rw [hbool] at hsome
    cases hsome
  · rfl

section Unsigned

variable {body : List Char}

theorem IsUnsigned.beginsNumber_signed (hbody : IsUnsigned body) (negative : Bool) :
    beginsNumber (signed negative body) := by
  obtain ⟨c, more, rfl, hc⟩ := hbody.begins
  cases negative with
  | true => exact hc
  | false =>
      rw [signed, if_neg Bool.false_ne_true, beginsNumber]
      · exact hc
      · rintro d rest rfl
        exact absurd hc (by decide)

theorem IsUnsigned.isWord (hbody : IsUnsigned body) (negative : Bool) :
    IsWord (signed negative body) := by
  obtain ⟨c, more, rfl, hc⟩ := hbody.begins
  have hall : ∀ d ∈ c :: more, isWordChar d := fun d hmem =>
    isWordChar_of_numeral (hbody.chars d hmem)
  have halnum : c.isAlphanum := by simp [Char.isAlphanum, hc]
  cases negative with
  | false => exact ⟨hall, c, more, halnum, Or.inl rfl⟩
  | true => exact ⟨List.forall_mem_cons.mpr ⟨by decide, hall⟩, c, more, halnum, Or.inr rfl⟩

/-- In a number that begins with a digit no other base is marked. -/
theorem IsUnsigned.ofMarkedDigits_eq (hbody : IsUnsigned body) : ofMarkedDigits body = none := by
  have hmark : ∀ mark : Char, isNumeralChar mark = false → afterStart ['0', mark] body = none := by
    intro mark hother
    refine if_neg fun hstart => ?_
    obtain ⟨rest, rfl⟩ := List.isPrefixOf_iff_prefix.mp hstart
    exact ne_of_numeral (hbody.chars mark (by simp)) hother rfl
  simp [ofMarkedDigits, hmark 'x' rfl, hmark 'o' rfl, hmark 'b' rfl]

theorem IsUnsigned.hasLeadingZero_signed (hbody : IsUnsigned body) (negative : Bool) :
    hasLeadingZero (signed negative body) = false := by
  obtain ⟨c, more, rfl, hc⟩ := hbody.begins
  have hminus : c ≠ '-' := by
    rintro rfl
    exact absurd hc (by decide)
  have hplus : c ≠ '+' := by
    rintro rfl
    exact absurd hc (by decide)
  cases negative with
  | true =>
      simp only [hasLeadingZero, signed, if_true]
      split
      · rename_i d rest heq
        exact Bool.eq_false_iff.mpr (hbody.leading d rest heq)
      · rfl
  | false =>
      simp only [hasLeadingZero, signed, Bool.false_eq_true, if_false]
      split
      · rename_i d rest heq
        simp only [List.cons.injEq, hminus, hplus, false_and, imp_false, not_false_eq_true,
          implies_true] at heq
        exact Bool.eq_false_iff.mpr (hbody.leading d rest (by rw [heq.1, heq.2]))
      · rfl

/-- The integer that a number spells, if there are only digits behind its sign. -/
theorem IsUnsigned.intOfText_signed (hbody : IsUnsigned body) (negative : Bool) :
    intOfText (String.ofList (signed negative body)) =
      (ofDigitsIn 10 body).map fun n => if negative then -(n : Int) else n := by
  have hmarked := hbody.ofMarkedDigits_eq
  have hleading := hbody.hasLeadingZero_signed negative
  obtain ⟨c, more, rfl, hc⟩ := hbody.begins
  have hminus : c ≠ '-' := by
    rintro rfl
    exact absurd hc (by decide)
  have hplus : c ≠ '+' := by
    rintro rfl
    exact absurd hc (by decide)
  rw [intOfText, String.toList_ofList]
  cases negative with
  | true =>
      simp only [signed, if_true] at hleading ⊢
      simp [hmarked, hleading]
  | false =>
      simp only [signed, Bool.false_eq_true, if_false] at hleading ⊢
      simp [hmarked, hleading, hminus, hplus]

/-- The number that is spelled behind a sign, if it is no integer. -/
theorem IsUnsigned.floatOfText_signed (hbody : IsUnsigned body) (negative : Bool) :
    floatOfText (String.ofList (signed negative body)) =
      (decimalOfText negative body).filter Binary64.isFinite := by
  have hbegins := hbody.beginsNumber_signed negative
  obtain ⟨c, more, rfl, hc⟩ := hbody.begins
  have hminus : c ≠ '-' := by
    rintro rfl
    exact absurd hc (by decide)
  have hplus : c ≠ '+' := by
    rintro rfl
    exact absurd hc (by decide)
  have hwords {words : List String} (hall : words.all fun word => !beginsNumber word.toList) :
      String.ofList (signed negative (c :: more)) ∉ words :=
    notMem_of_beginsNumber (by rwa [String.toList_ofList]) hall
  rw [floatOfText, String.toList_ofList]
  cases negative with
  | true =>
      simp only [signed, if_true] at hwords ⊢
      exact (if_neg (hwords rfl)).trans ((if_neg (hwords rfl)).trans (if_neg (hwords rfl)))
  | false =>
      simp only [signed, Bool.false_eq_true, if_false] at hwords ⊢
      simp only [List.cons.injEq, hminus, hplus, false_and, imp_false, not_false_eq_true,
          implies_true]
      exact (if_neg (hwords rfl)).trans ((if_neg (hwords rfl)).trans (if_neg (hwords rfl)))

end Unsigned

/-! ### Integers -/

theorem toList_toString (n : Int) :
    (toString n).toList = signed (n < 0) (Nat.toDigits 10 n.natAbs) := by
  rw [Int.toString_eq_repr, Int.repr_eq_if]
  by_cases hn : 0 ≤ n
  · have habs : n.natAbs = n.toNat := by omega
    rw [if_pos hn, Nat.toList_repr, signed, if_neg (by simpa using hn), habs]
  · have habs : n.natAbs = (-n).toNat := by omega
    rw [if_neg hn, String.toList_append, Nat.toList_repr, signed, if_pos (by simpa using hn), habs]
    rfl

theorem isUnsigned_toDigits (n : Nat) : IsUnsigned (Nat.toDigits 10 n) := by
  have hdigit : ∀ c ∈ Nat.toDigits 10 n, c.isDigit := fun c hmem => Decimal.isDigit_of_mem hmem
  obtain ⟨c, more, hdigits⟩ := List.exists_cons_of_ne_nil (Nat.toDigits_ne_nil (b := 10) (n := n))
  refine ⟨⟨c, more, hdigits, hdigit c (by rw [hdigits]; exact List.mem_cons_self)⟩,
    fun d hmem => isNumeralChar_of_isDigit (hdigit d hmem), ?_⟩
  intro d rest hzero
  by_cases hn : n = 0
  · rw [hn] at hzero
    cases hzero
  · obtain ⟨first, others, hfirst, hne⟩ := Decimal.toDigits_begins hn
    rw [hfirst] at hzero
    exact absurd (List.cons.inj hzero).1 hne

theorem isWord_int (n : Int) : IsWord (Json.print (.int n)).toList := by
  rw [Json.print, toList_toString]
  exact (isUnsigned_toDigits n.natAbs).isWord _

theorem plainValue_int {n : Int} (hn : fitsWord n) :
    plainValue (Json.print (.int n)) = some (.int n) := by
  have hdigits := isUnsigned_toDigits n.natAbs
  have htext : Json.print (.int n) = String.ofList (signed (n < 0) (Nat.toDigits 10 n.natAbs)) := by
    rw [← toList_toString, String.ofList_toList]
    rfl
  have hint : intOfText (Json.print (.int n)) = some n := by
    rw [htext, hdigits.intOfText_signed, Decimal.ofDigitsIn_toDigits]
    refine congrArg some ?_
    by_cases hneg : n < 0
    · simp only [hneg, decide_true, if_true]
      omega
    · simp only [hneg, decide_false, Bool.false_eq_true, if_false]
      omega
  rw [plainValue_of_beginsNumber, jsonOfInt, hint]
  · simp [hn]
  · rw [htext, String.toList_ofList]
    exact hdigits.beginsNumber_signed _

/-! ### Numbers with a fraction or a power of ten -/

/-- A number as it is written in decimal, without its sign. -/
structure Numeral where
  whole : List Char
  fraction : List Char
  /-- The power of ten, if one is written. -/
  exponent? : Option Int

namespace Numeral

/-- How the power of ten is written. -/
def exponentText : Option Int → List Char
  | none => []
  | some e => 'e' :: (if e < 0 then '-' else '+') :: Nat.toDigits 10 e.natAbs

def text (n : Numeral) : List Char :=
  n.whole ++ ((if n.fraction = [] then [] else '.' :: n.fraction) ++ exponentText n.exponent?)

/-- All the digits, before and behind the point. -/
def digits (n : Numeral) : List Char :=
  n.whole ++ n.fraction

/-- The power of ten by which all the digits are multiplied. -/
def scale (n : Numeral) : Int :=
  n.exponent?.getD 0 - n.fraction.length

/-- The number is not mistaken for an integer or for a text. -/
structure IsProper (n : Numeral) : Prop where
  digits : ∀ c ∈ n.digits, c.isDigit
  begins : n.whole ≠ []
  not_int : n.fraction = [] → n.exponent? ≠ none

variable {n : Numeral}

theorem not_isDigit_head_exponentText (e : Option Int) :
    ∀ c ∈ (exponentText e).head?, c.isDigit = false := by
  cases e with
  | none => simp [exponentText]
  | some e => simp [exponentText]

theorem takeWhile_append_of_head {digits rest : List Char} (hdigits : ∀ c ∈ digits, c.isDigit)
    (hrest : ∀ c ∈ rest.head?, c.isDigit = false) :
    (digits ++ rest).takeWhile Char.isDigit = digits ∧
      (digits ++ rest).dropWhile Char.isDigit = rest := by
  rw [List.takeWhile_append_of_pos hdigits, List.dropWhile_append_of_pos hdigits]
  cases rest with
  | nil => simp
  | cons c rest =>
      have hc := hrest c rfl
      simp [hc]

/-- What stands behind the digits before the point. -/
def tail (n : Numeral) : List Char :=
  (if n.fraction = [] then [] else '.' :: n.fraction) ++ exponentText n.exponent?

theorem not_isDigit_head_tail (n : Numeral) : ∀ c ∈ n.tail.head?, c.isDigit = false := by
  rw [tail]
  split
  · exact not_isDigit_head_exponentText n.exponent?
  · simp

theorem IsProper.readFraction_tail (hn : n.IsProper) :
    readFraction n.tail = (n.fraction, exponentText n.exponent?) := by
  have hfraction := takeWhile_append_of_head
    (fun c hmem => hn.digits c (List.mem_append_right _ hmem))
    (not_isDigit_head_exponentText n.exponent?)
  rw [tail]
  by_cases hnone : n.fraction = []
  · rw [if_pos hnone, List.nil_append, hnone]
    cases n.exponent? <;> rfl
  · rw [if_neg hnone, List.cons_append, readFraction, hfraction.1, hfraction.2]

theorem readExponent_exponentText (e : Option Int) :
    readExponent (exponentText e) = some (e.getD 0) := by
  cases e with
  | none => rfl
  | some e =>
      have hdigits := Decimal.ofDigitsIn_toDigits e.natAbs
      by_cases hneg : e < 0
      · simp [readExponent, exponentText, hneg, hdigits, abs_of_neg hneg]
      · simp [readExponent, exponentText, hneg, hdigits, abs_of_nonneg (not_lt.mp hneg)]

theorem IsProper.decimalOfText_eq (hn : n.IsProper) (negative : Bool) :
    decimalOfText negative n.text =
      some (Binary64.ofDecimal negative (Nat.ofDigitChars 10 n.digits 0) n.scale) := by
  have hdigits : ofDigitsIn 10 (n.whole ++ n.fraction) = some (Nat.ofDigitChars 10 n.digits 0) :=
    ofDigitsIn_ten (by simp [hn.begins]) hn.digits
  have hsplit := takeWhile_append_of_head
    (fun c hmem => hn.digits c (List.mem_append_left _ hmem)) n.not_isDigit_head_tail
  have htext : n.text = n.whole ++ n.tail := rfl
  rw [decimalOfText, htext, hsplit.1, hsplit.2, hn.readFraction_tail]
  simp only [readExponent_exponentText, hdigits]
  exact if_neg (by simp [hn.begins])

/-- The number that is spelled. -/
def value (n : Numeral) : ℚ :=
  Nat.ofDigitChars 10 n.digits 0 * (10 : ℚ) ^ n.scale

theorem isNumeralChar_of_mem_exponentText {e : Option Int} {c : Char}
    (hmem : c ∈ exponentText e) : isNumeralChar c := by
  cases e with
  | none => cases hmem
  | some e =>
      simp only [exponentText, List.mem_cons] at hmem
      rcases hmem with rfl | rfl | hmem
      · decide
      · split <;> decide
      · exact isNumeralChar_of_isDigit (Decimal.isDigit_of_mem hmem)

/-- A number that is no integer has a point or the mark of a power of ten. -/
theorem IsProper.exists_mark (hn : n.IsProper) : ∃ c ∈ n.text, c.isDigit = false := by
  have hmark : ∃ c ∈ n.tail, c.isDigit = false := by
    rw [tail]
    by_cases hfraction : n.fraction = []
    · obtain ⟨e, he⟩ := Option.ne_none_iff_exists'.mp (hn.not_int hfraction)
      exact ⟨'e', by simp [he, exponentText], by decide⟩
    · exact ⟨'.', by simp [hfraction], by decide⟩
  obtain ⟨c, hmem, hc⟩ := hmark
  exact ⟨c, List.mem_append_right _ hmem, hc⟩

theorem IsProper.isUnsigned (hn : n.IsProper) : IsUnsigned n.text := by
  obtain ⟨first, more, hwhole⟩ := List.exists_cons_of_ne_nil hn.begins
  have hdigit : ∀ c ∈ n.whole ++ n.fraction, c.isDigit := hn.digits
  refine ⟨⟨first, more ++ n.tail, ?_, hdigit first (by simp [hwhole])⟩, ?_, ?_⟩
  · rw [text, hwhole]
    rfl
  · intro c hmem
    rcases List.mem_append.mp hmem with hmem | hmem
    · exact isNumeralChar_of_isDigit (hdigit c (List.mem_append_left _ hmem))
    rcases List.mem_append.mp hmem with hmem | hmem
    · split at hmem
      · cases hmem
      rcases List.mem_cons.mp hmem with rfl | hmem
      · decide
      · exact isNumeralChar_of_isDigit (hdigit c (List.mem_append_right _ hmem))
    · exact isNumeralChar_of_mem_exponentText hmem
  · intro c rest htext hall
    obtain ⟨mark, hmem, hmark⟩ := hn.exists_mark
    rw [htext] at hmem
    rcases List.mem_cons.mp hmem with rfl | hmem
    · cases hmark
    · rw [List.all_eq_true.mp hall mark hmem] at hmark
      cases hmark

section Shortest

variable {d : ℕ} {k : ℤ}

/-- The digits of a number that is too large or too small for other ways, with a power of ten. -/
theorem exists_scientific (d : ℕ) (k : ℤ) :
    ∃ n : Numeral, n.IsProper ∧ n.value = d * (10 : ℚ) ^ k ∧
      n.text = (Nat.toDigits 10 d).take 1 ++
        (if (Nat.toDigits 10 d).length = 1 then [] else '.' :: (Nat.toDigits 10 d).drop 1) ++
        exponentText (some ((Nat.toDigits 10 d).length + k - 1)) := by
  have hdigits : ∀ c ∈ Nat.toDigits 10 d, c.isDigit := fun c hmem => Decimal.isDigit_of_mem hmem
  have hvalue := Nat.ofDigitChars_ten_toDigits (n := d)
  obtain ⟨first, more, heq⟩ := List.exists_cons_of_ne_nil (Nat.toDigits_ne_nil (b := 10) (n := d))
  rw [heq] at hdigits hvalue ⊢
  refine ⟨⟨[first], more, some ((first :: more).length + k - 1)⟩, ⟨hdigits, by simp, by simp⟩,
    ?_, ?_⟩
  · have hscale : scale ⟨[first], more, some ((first :: more).length + k - 1)⟩ = k := by
      simp only [scale, Option.getD_some, List.length_cons]
      omega
    rw [value, hscale]
    exact congrArg (fun m : ℕ => (m : ℚ) * 10 ^ k) hvalue
  · simp [text]

/-- The digits of a number below one, behind a point and zeros. -/
theorem exists_small (d : ℕ) (zeros : ℕ) :
    ∃ n : Numeral, n.IsProper ∧
      n.value = d * (10 : ℚ) ^ (-(zeros + (Nat.toDigits 10 d).length : ℕ) : ℤ) ∧
      n.text = ['0', '.'] ++ List.replicate zeros '0' ++ Nat.toDigits 10 d := by
  have hzeros : ∀ c ∈ List.replicate zeros '0', c.isDigit := by
    intro c hmem
    rw [(List.mem_replicate.mp hmem).2]
    decide
  refine ⟨⟨['0'], List.replicate zeros '0' ++ Nat.toDigits 10 d, none⟩, ⟨?_, by simp, ?_⟩, ?_, ?_⟩
  · intro c hmem
    simp only [digits, List.cons_append, List.nil_append, List.mem_cons, List.mem_append] at hmem
    rcases hmem with rfl | hmem | hmem
    · decide
    · exact hzeros c hmem
    · exact Decimal.isDigit_of_mem hmem
  · simp [Nat.toDigits_ne_nil]
  · have hvalue : Nat.ofDigitChars 10 ('0' :: (List.replicate zeros '0' ++ Nat.toDigits 10 d)) 0 =
        d := by
      simp [Nat.ofDigitChars_cons, Nat.ofDigitChars_append, Nat.ofDigitChars_replicate_zero,
        Nat.ofDigitChars_ten_toDigits]
    have hscale : scale ⟨['0'], List.replicate zeros '0' ++ Nat.toDigits 10 d, none⟩ =
        (-(zeros + (Nat.toDigits 10 d).length : ℕ) : ℤ) := by
      simp [scale]
    rw [value, hscale]
    exact congrArg (fun m : ℕ => (m : ℚ) * _) hvalue
  · simp [text, exponentText, Nat.toDigits_ne_nil]

/-- The digits of a whole number, with zeros behind them and one behind a point. -/
theorem exists_large (d : ℕ) (zeros : ℕ) :
    ∃ n : Numeral, n.IsProper ∧ n.value = d * (10 : ℚ) ^ (zeros : ℤ) ∧
      n.text = Nat.toDigits 10 d ++ List.replicate zeros '0' ++ ['.', '0'] := by
  refine ⟨⟨Nat.toDigits 10 d ++ List.replicate zeros '0', ['0'], none⟩, ⟨?_, ?_, by simp⟩, ?_, ?_⟩
  · intro c hmem
    simp only [digits, List.mem_append, List.mem_replicate, List.mem_singleton] at hmem
    rcases hmem with (hmem | ⟨-, rfl⟩) | rfl
    · exact Decimal.isDigit_of_mem hmem
    · decide
    · decide
  · simp [Nat.toDigits_ne_nil]
  · have hvalue : Nat.ofDigitChars 10
        ((Nat.toDigits 10 d ++ List.replicate zeros '0') ++ ['0']) 0 = 10 * (10 ^ zeros * d) := by
      simp [Nat.ofDigitChars_cons, Nat.ofDigitChars_append, Nat.ofDigitChars_replicate_zero,
        Nat.ofDigitChars_ten_toDigits]
    have hscale : scale ⟨Nat.toDigits 10 d ++ List.replicate zeros '0', ['0'], none⟩ = -1 := rfl
    rw [value, hscale]
    refine (congrArg (fun m : ℕ => (m : ℚ) * _) hvalue).trans ?_
    push_cast
    rw [zpow_natCast]
    ring
  · simp [text, exponentText]

/-- The digits of a number around a point. -/
theorem exists_pointed (d : ℕ) {whole : ℕ} (hpos : 0 < whole)
    (hwhole : whole < (Nat.toDigits 10 d).length) :
    ∃ n : Numeral, n.IsProper ∧
      n.value = d * (10 : ℚ) ^ ((whole : ℤ) - (Nat.toDigits 10 d).length) ∧
      n.text = (Nat.toDigits 10 d).take whole ++ '.' :: (Nat.toDigits 10 d).drop whole := by
  have hfraction : (Nat.toDigits 10 d).drop whole ≠ [] := by
    simpa using hwhole
  refine ⟨⟨(Nat.toDigits 10 d).take whole, (Nat.toDigits 10 d).drop whole, none⟩,
    ⟨?_, ?_, fun hnone => absurd hnone hfraction⟩, ?_, ?_⟩
  · intro c hmem
    rw [digits, List.take_append_drop] at hmem
    exact Decimal.isDigit_of_mem hmem
  · simp [Nat.toDigits_ne_nil, hpos.ne']
  · have hscale : scale ⟨(Nat.toDigits 10 d).take whole, (Nat.toDigits 10 d).drop whole, none⟩ =
        (whole : ℤ) - (Nat.toDigits 10 d).length := by
      simp only [scale, Option.getD_none, List.length_drop]
      omega
    rw [value, hscale, digits, List.take_append_drop, Nat.ofDigitChars_ten_toDigits]
  · simp [text, exponentText, hfraction]

end Shortest

/-- What is printed of a number is a number with the value of its shortest digits. -/
theorem exists_numeral (x : Binary64) :
    ∃ n : Numeral, n.IsProper ∧ x.toText.toList = signed x.isNegative n.text ∧
      n.value = if x.isZero then 0 else x.shortest.1 * (10 : ℚ) ^ x.shortest.2 := by
  have hsign (body : List Char) :
      ((if x.isNegative then "-" else "") ++ String.ofList body).toList =
        signed x.isNegative body := by
    rw [String.toList_append, String.toList_ofList, signed]
    split <;> rfl
  cases hzero : x.isZero with
  | true =>
      refine ⟨⟨['0'], ['0'], none⟩, ⟨List.all_eq_true.mp rfl, by simp, by simp⟩, ?_, ?_⟩
      · rw [Binary64.toText, if_pos hzero]
        exact hsign ['0', '.', '0']
      · have hdigits : Nat.ofDigitChars 10 (digits ⟨['0'], ['0'], none⟩) 0 = 0 := by decide
        rw [value, hdigits]
        simp
  | false =>
      have hspells {body : List Char} {v : ℚ}
          (hbody : ∃ n : Numeral, n.IsProper ∧ n.value = v ∧ n.text = body) :
          ∃ n : Numeral, n.IsProper ∧
            ((if x.isNegative then "-" else "") ++ String.ofList body).toList =
              signed x.isNegative n.text ∧ n.value = v := by
        obtain ⟨n, hn, hvalue, rfl⟩ := hbody
        exact ⟨n, hn, hsign _, hvalue⟩
      rw [Binary64.toText, if_neg (by simp [hzero]), if_neg Bool.false_ne_true]
      obtain ⟨d, k⟩ := x.shortest
      have hcount : 0 < (Nat.toDigits 10 d).length := Nat.length_toDigits_pos
      refine hspells ?_
      dsimp only
      generalize hlead : ((Nat.toDigits 10 d).length : ℤ) + k - 1 = lead
      by_cases hextreme : lead < -5 ∨ 15 < lead
      · obtain ⟨n, hn, hvalue, htext⟩ := exists_scientific d k
        refine ⟨n, hn, hvalue, htext.trans ?_⟩
        rw [if_pos hextreme, hlead, exponentText]
        split_ifs <;> rfl
      rw [if_neg hextreme]
      by_cases hbelow : lead < 0
      · obtain ⟨n, hn, hvalue, htext⟩ := exists_small d (lead.natAbs - 1)
        refine ⟨n, hn, hvalue.trans ?_, htext.trans (if_pos hbelow).symm⟩
        congr 2
        omega
      rw [if_neg hbelow]
      by_cases hwhole : (Nat.toDigits 10 d).length ≤ lead.toNat + 1
      · obtain ⟨n, hn, hvalue, htext⟩ :=
          exists_large d (lead.toNat + 1 - (Nat.toDigits 10 d).length)
        refine ⟨n, hn, hvalue.trans ?_, htext.trans (if_pos hwhole).symm⟩
        congr 2
        omega
      · obtain ⟨n, hn, hvalue, htext⟩ :=
          exists_pointed d (Nat.succ_pos lead.toNat) (Nat.lt_of_not_le hwhole)
        refine ⟨n, hn, hvalue.trans ?_, htext.trans (if_neg hwhole).symm⟩
        congr 2
        omega

end Numeral

theorem isWord_float (x : Binary64) : IsWord (Json.print (.float x)).toList := by
  rw [Json.print]
  split
  · obtain ⟨n, hn, htext, -⟩ := Numeral.exists_numeral x
    rw [htext]
    exact hn.isUnsigned.isWord _
  · exact ⟨List.all_eq_true.mp rfl, 'n', ['u', 'l', 'l'], by decide, Or.inl rfl⟩

theorem plainValue_float {x : Binary64} (hx : x.isFinite) :
    plainValue (Json.print (.float x)) = some (.float x) := by
  obtain ⟨n, hn, htext, hvalue⟩ := Numeral.exists_numeral x
  have hprint : Json.print (.float x) = String.ofList (signed x.isNegative n.text) := by
    rw [Json.print, if_pos hx, ← htext, String.ofList_toList]
  have hbody := hn.isUnsigned
  have hread : Binary64.ofDecimal x.isNegative (Nat.ofDigitChars 10 n.digits 0) n.scale = x := by
    cases hzero : x.isZero with
    | true =>
        rw [hzero, if_pos rfl, Numeral.value, mul_eq_zero] at hvalue
        have hnone : Nat.ofDigitChars 10 n.digits 0 = 0 := by
          rcases hvalue with hnone | hpower
          · exact_mod_cast hnone
          · exact absurd hpower (zpow_ne_zero _ (by norm_num))
        have hfields : x.exponentField = 0 ∧ x.fractionField = 0 := of_decide_eq_true hzero
        have hx := x.ofFields_fields
        rw [hfields.1, hfields.2] at hx
        rw [hnone, Binary64.ofDecimal, if_pos (Or.inl rfl)]
        exact hx
    | false =>
        rw [hzero, if_neg Bool.false_ne_true] at hvalue
        refine Binary64.ofDecimal_covers hx hzero ?_
        change Binary64.Covers x n.value
        rw [hvalue]
        exact (Binary64.shortest_covers hzero).2
  have hint : jsonOfInt (String.ofList (signed x.isNegative n.text)) = none := by
    obtain ⟨mark, hmem, hmark⟩ := hn.exists_mark
    rw [jsonOfInt, hbody.intOfText_signed, ofDigitsIn_ten_eq_none hmem hmark]
    rfl
  have hfloat : floatOfText (String.ofList (signed x.isNegative n.text)) = some x := by
    rw [hbody.floatOfText_signed, hn.decimalOfText_eq, hread]
    exact if_pos hx
  rw [hprint, plainValue_of_beginsNumber, hint]
  · simp [hbody.hasLeadingZero_signed, hfloat, hx, jsonOfFloat]
  · rw [String.toList_ofList]
    exact hbody.beginsNumber_signed _

end LogForwarding.Yaml
