import LogForwarding.Pattern.Cost
import LogForwarding.Pattern.Grammar
import LogForwarding.Pattern.Piece

/-!
POSIX extended regular expressions.  A pattern is first searched for constructs that only other
dialects have, then the members of its bracket expressions are escaped, and the result must be a
pattern of the dialect that compiles it.
-/

namespace LogForwarding

open Pattern

/-- Why a pattern is refused. -/
inductive EreError where
  /-- An escape that only other dialects have. -/
  | perlEscape (c : Char)
  /-- A question mark behind a repetition. -/
  | nonGreedy
  /-- A question mark behind an opening parenthesis. -/
  | groupFlags
  | trailingBackslash
  /-- The escaped pattern cannot be compiled. -/
  | invalid
deriving DecidableEq, Repr, Inhabited

namespace EreError

/-- What the compiler of patterns has to say about one that it refuses. -/
def compilerText : String := "<regex error>"

def message : EreError → String
  | .perlEscape c => "Perl escape '\\" ++ String.singleton c ++ "' is not supported by POSIX ERE"
  | .nonGreedy => "non-greedy repetition is not supported by POSIX ERE"
  | .groupFlags => "group flags '(?' are not supported by POSIX ERE"
  | .trailingBackslash => "trailing backslash"
  | .invalid => compilerText

end EreError

namespace Ere

/-- The characters that may not stand behind a backslash. -/
def perlEscapes : List Char :=
  ['d', 'D', 's', 'S', 'w', 'W', 'b', 'B', 'A', 'z', 'Z', 'p', 'P', 'Q', 'E', 'C', 'G', 'K', 'x',
    'X']

/-- The first construct of another dialect.  A closing brace counts as the end of a repetition. -/
def foreign? (afterRepetition : Bool) : List Piece → Option EreError
  | [] => none
  | .loneBackslash :: _ => some .trailingBackslash
  | .escape c :: rest => if c ∈ perlEscapes then some (.perlEscape c) else foreign? false rest
  | .bracket _ :: rest => foreign? false rest
  | .single '(' :: .single '?' :: _ => some .groupFlags
  | .single c :: rest =>
      if c = '?' ∧ afterRepetition then some .nonGreedy
      else foreign? (c = '*' ∨ c = '+' ∨ c = '?' ∨ c = '\x7d') rest

def check (pattern : List Char) : Except EreError Unit :=
  match foreign? false (pieces pattern) with
  | some error => .error error
  | none => .ok ()

/-- The escaped pattern, if the pattern is valid. -/
def compile (pattern : String) : Except EreError String := do
  let cs := pattern.toList
  check cs
  let escaped := escapeBrackets cs
  match Ast.read? escaped with
  | some ast => if ast.isCompilable then return String.ofList escaped else throw .invalid
  | none => throw .invalid

end Ere

end LogForwarding
