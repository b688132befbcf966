import LogForwarding.Pattern.Bracket

/-!
A pattern as a sequence of escapes, bracket expressions and single characters, read from left to
right.
-/

namespace LogForwarding.Pattern

/-- A part of a pattern. -/
inductive Piece where
  /-- A backslash and the character behind it. -/
  | escape (c : Char)
  /-- A backslash at the end of the pattern. -/
  | loneBackslash
  | bracket (b : Bracket)
  | single (c : Char)
deriving DecidableEq, Repr, Inhabited

def Piece.text : Piece → List Char
  | .escape c => ['\\', c]
  | .loneBackslash => ['\\']
  | .bracket b => b.text
  | .single c => [c]

/-- A piece of the escaped pattern: only bracket expressions change. -/
def Piece.escapedText : Piece → List Char
  | .bracket b => b.escapedText
  | piece => piece.text

def pieces : List Char → List Piece
  | [] => []
  | ['\\'] => [.loneBackslash]
  | '\\' :: c :: rest => .escape c :: pieces rest
  | '[' :: rest => .bracket (Bracket.scan rest).1 :: pieces (Bracket.scan rest).2
  | c :: rest => .single c :: pieces rest
termination_by cs => cs.length
decreasing_by
  · simp only [List.length_cons]
    omega
  · have := Bracket.scan_rest_length_le rest
    simp only [List.length_cons]
    omega
  · simp only [List.length_cons]
    omega

/-- The pattern with those bracket members escaped that would otherwise mean something. -/
def escapeBrackets (pattern : List Char) : List Char :=
  (pieces pattern).flatMap Piece.escapedText

end LogForwarding.Pattern
