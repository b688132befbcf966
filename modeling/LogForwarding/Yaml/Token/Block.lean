import LogForwarding.Yaml.Token.Basic

/-!
Block scalars: a header line, then the lines that are indented deeply enough.
-/

namespace LogForwarding.Yaml

/-- What becomes of the line breaks at the end of a block scalar. -/
inductive Chomping where
  | strip
  | clip
  | keep
deriving DecidableEq, Repr

/-- Skips indentation and empty lines.  While the indentation is not known (zero) all spaces are
skipped.  Yields the breaks in reverse, the largest column seen and the rest; a tab in place of
indentation is refused. -/
private def scanEmptyLines (indent : Nat) (breaks : List Char) (widest : Nat) :
    Source → Option (List Char × Nat × Source)
  | [] => some (breaks, widest, [])
  | c :: rest =>
      let inside : Bool := indent = 0 ∨ c.column < indent
      if inside ∧ c.char = ' ' then scanEmptyLines indent breaks widest rest
      else
        let widest := max widest c.column
        if inside ∧ c.char = '\t' then none
        else if isBreak c.char then scanEmptyLines indent (c.char :: breaks) widest rest
        else some (breaks, widest, c :: rest)

/-- The lines of a block scalar.  `leading` is the break behind the previous line and `trailing`
holds the empty lines behind it, in reverse. -/
private def scanLines (folded : Bool) (chomping : Chomping) (indent : Nat) :
    (fuel : Nat) → (seen : List Char) → (leading : Option Char) → (trailing : List Char) →
      (afterBlank : Bool) → Source → Option (String × Source)
  | 0, _, _, _, _, _ => none
  | fuel + 1, seen, leading, trailing, afterBlank, source =>
      if source.site.column = indent ∧ source.peek ≠ endMark then
        let blank := isBlank source.peek
        let joined :=
          if folded ∧ leading = some '\n' ∧ ¬ afterBlank ∧ ¬ blank then
            if trailing = [] then ' ' :: seen else seen
          else leading.toList ++ seen
        let line := source.takeWhile fun c => ¬ isBreakOrEnd c.char
        let rest : Source := source.dropWhile fun c => ¬ isBreakOrEnd c.char
        let (leading, rest) : Option Char × Source :=
          if isBreak rest.peek then (some rest.peek, rest.drop 1) else (none, rest)
        match scanEmptyLines indent [] 0 rest with
        | none => none
        | some (breaks, _, rest) =>
            scanLines folded chomping indent fuel
              ((line.map Sited.char).reverse ++ (trailing ++ joined)) leading breaks blank rest
      else
        let seen := if chomping = .strip then seen else leading.toList ++ seen
        let seen := if chomping = .keep then trailing ++ seen else seen
        some (String.ofList seen.reverse, source)

private def indentDigit (c : Char) : Option Nat :=
  if '1' ≤ c ∧ c ≤ '9' then some (c.toNat - '0'.toNat) else none

private def scanHeader (source : Source) : Option (Chomping × Nat × Source) :=
  let chomp (source : Source) : Option (Chomping × Source) :=
    if source.peek = '+' then some (.keep, source.drop 1)
    else if source.peek = '-' then some (.strip, source.drop 1)
    else none
  match chomp source with
  | some (chomping, source) =>
      if source.peek = '0' then none
      else match indentDigit source.peek with
        | some n => some (chomping, n, source.drop 1)
        | none => some (chomping, 0, source)
  | none =>
      if source.peek = '0' then none
      else match indentDigit source.peek with
        | some n =>
            match chomp (source.drop 1) with
            | some (chomping, rest) => some (chomping, n, rest)
            | none => some (.clip, n, source.drop 1)
        | none => some (.clip, 0, source)

/-- Reads a block scalar behind its indicator, inside a block indented by `parent` columns. -/
def scanBlock (folded : Bool) (parent : Int) (source : Source) : Option (String × Source) := do
  let (chomping, increment, source) ← scanHeader source
  let source ← source.finishLine?
  let given : Nat := if increment = 0 then 0 else (max parent 0).toNat + increment
  let (breaks, widest, rest) ← scanEmptyLines given [] 0 source
  let indent := if given = 0 then max widest (max (parent + 1).toNat 1) else given
  scanLines folded chomping indent (rest.length + 1) [] none breaks false rest

end LogForwarding.Yaml
