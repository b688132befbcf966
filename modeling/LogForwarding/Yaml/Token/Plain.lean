import LogForwarding.Yaml.Token.Basic

/-!
Plain scalars, read one character at a time.
-/

namespace LogForwarding.Yaml

/-- A plain scalar, whether a line break follows it, and the rest of the stream. -/
structure PlainScalar where
  text : String
  atLineStart : Bool
  rest : Source

/-- Ends a plain scalar inside a collection in brackets. -/
def isFlowIndicator (c : Char) : Bool :=
  c = ',' ∨ c = '[' ∨ c = ']' ∨ c = '\x7b' ∨ c = '\x7d'

/-- Reads a plain scalar that may continue on lines indented by `indent` columns at least.  Inside
brackets indentation does not matter, but the indicators end the scalar there. -/
def scanPlain (flow : Bool) (indent : Int) (seen : List Char) (gap : Gap) :
    Source → Option PlainScalar
  | [] => some ⟨String.ofList seen.reverse, gap.breaks ≠ [], []⟩
  | c :: rest =>
      let source := c :: rest
      let stop : Option PlainScalar :=
        some ⟨String.ofList seen.reverse, gap.breaks ≠ [], source⟩
      if isBlank c.char ∨ isBreak c.char then
        if gap.breaks ≠ [] ∧ c.char = '\t' ∧ (c.column : Int) < indent then none
        else scanPlain flow indent seen (gap.push c.char) rest
      else if c.char = endMark then stop
      else if gap.breaks ≠ [] ∧ ¬ flow ∧ (c.column : Int) < indent then stop
      else if gap ≠ Gap.empty ∧ (c.char = '#' ∨ Source.atDocumentMarker source) then stop
      else
        let next := Source.peek rest
        if flow ∧ c.char = ':' ∧ (next = '?' ∨ isFlowIndicator next) then none
        else if (c.char = ':' ∧ isBlankOrEnd next) ∨ (flow ∧ isFlowIndicator c.char) then stop
        else scanPlain flow indent (c.char :: (gap.foldedReversed ++ seen)) Gap.empty rest

end LogForwarding.Yaml
