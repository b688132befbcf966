import LogForwarding.Yaml.Source

/-!
The tokens of a YAML stream, and the white space inside a scalar, which folding turns into text.
-/

namespace LogForwarding.Yaml

/-- How a scalar is written. -/
inductive ScalarStyle where
  | plain
  | quoted
  | literal
  | folded
deriving DecidableEq, Repr, Inhabited

/-- A lexical unit of a stream. -/
inductive Token where
  | version (major minor : Nat)
  | tagHandle (handle uri : String)
  | documentStart
  | documentEnd
  | blockSequenceStart
  | blockMappingStart
  | blockEnd
  | flowSequenceStart
  | flowSequenceEnd
  | flowMappingStart
  | flowMappingEnd
  | blockEntry
  | flowEntry
  | key
  | value
  | alias (name : String)
  | anchor (name : String)
  | tag (handle suffix : String)
  | scalar (text : String) (style : ScalarStyle)
deriving DecidableEq, Repr, Inhabited

/-- White space inside a scalar: blanks before the first line break, and the line breaks, newest
first.  An escaped line break is recorded as `none`. -/
structure Gap where
  blanks : List Char
  breaks : List (Option Char)
deriving DecidableEq, Repr, Inhabited

namespace Gap

def empty : Gap := ⟨[], []⟩

/-- One more blank or line break; blanks behind a line break do not count. -/
def push (gap : Gap) (c : Char) : Gap :=
  if isBreak c then ⟨[], some c :: gap.breaks⟩
  else if gap.breaks = [] then ⟨c :: gap.blanks, []⟩
  else gap

/-- The text that the white space stands for, in reverse: the blanks of a single line; a space for
one line feed; otherwise the breaks, less a first line feed. -/
def foldedReversed (gap : Gap) : List Char :=
  match gap.breaks.reverse with
  | [] => gap.blanks
  | [some '\n'] => [' ']
  | some '\n' :: more => (more.filterMap id).reverse
  | all => (all.filterMap id).reverse

end Gap

end LogForwarding.Yaml
