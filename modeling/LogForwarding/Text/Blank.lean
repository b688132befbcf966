/-!
White space and control characters of all scripts.
-/

namespace LogForwarding.Text

/-- The characters that count as white space in any script. -/
def isBlank (c : Char) : Bool :=
  let n := c.toNat
  (0x9 ≤ n ∧ n ≤ 0xD) ∨ n = 0x20 ∨ n = 0x85 ∨ n = 0xA0 ∨ n = 0x1680 ∨ (0x2000 ≤ n ∧ n ≤ 0x200A) ∨
    n = 0x2028 ∨ n = 0x2029 ∨ n = 0x202F ∨ n = 0x205F ∨ n = 0x3000

/-- The control characters: below the space, and from the delete character to the last one of the
second control range. -/
def isControl (c : Char) : Bool :=
  let n := c.toNat
  n < 0x20 ∨ (0x7F ≤ n ∧ n ≤ 0x9F)

/-- Whether a text holds nothing but white space. -/
def isBlankText (text : String) : Bool :=
  text.toList.all isBlank

/-- Characters that are white space in ASCII are white space here. -/
theorem isBlank_of_isWhitespace {c : Char} (h : c.isWhitespace) : isBlank c := by
  simp only [Char.isWhitespace, Bool.or_eq_true, decide_eq_true_eq] at h
  rcases h with ((h | h) | h) | h <;> subst h <;> decide

end LogForwarding.Text
