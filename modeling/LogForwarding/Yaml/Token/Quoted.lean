import LogForwarding.Yaml.Token.Basic

/-!
Quoted scalars, read one character at a time.
-/

namespace LogForwarding.Yaml

/-- What the next character of a quoted scalar belongs to. -/
inductive QuotedState where
  /-- Plain content. -/
  | content
  /-- A run of white space. -/
  | gap (gap : Gap)
  /-- The character after a backslash. -/
  | escape
  /-- Hexadecimal digits of a character code, so many still missing. -/
  | code (missing : Nat) (value : Nat)
  /-- A single quote was read: it ends the scalar unless another follows. -/
  | quote
deriving DecidableEq, Repr

/-- The outcome of one character. -/
inductive QuotedStep where
  | next (seen : List Char) (state : QuotedState)
  | close (seen : List Char)
  | broken

def contentStep (single : Bool) (seen : List Char) (c : Char) : QuotedStep :=
  if c = endMark then .broken
  else if isBlank c ∨ isBreak c then .next seen (.gap (Gap.empty.push c))
  else if single then
    if c = '\'' then .next seen .quote else .next (c :: seen) .content
  else if c = '"' then .close seen
  else if c = '\\' then .next seen .escape
  else .next (c :: seen) .content

/-- The character that a one-letter escape stands for. -/
def escapedLetter (c : Char) : Option Char :=
  match c with
  | '0' => some '\x00'
  | 'a' => some '\x07'
  | 'b' => some '\x08'
  | 't' => some '\t'
  | '\t' => some '\t'
  | 'n' => some '\n'
  | 'v' => some '\x0b'
  | 'f' => some '\x0c'
  | 'r' => some '\r'
  | 'e' => some '\x1b'
  | ' ' => some ' '
  | '"' => some '"'
  | '/' => some '/'
  | '\\' => some '\\'
  | 'N' => some '\u0085'
  | '_' => some '\u00a0'
  | 'L' => some '\u2028'
  | 'P' => some '\u2029'
  | _ => none

/-- The number of hexadecimal digits that follow a letter. -/
def escapeWidth (c : Char) : Option Nat :=
  match c with
  | 'x' => some 2
  | 'u' => some 4
  | 'U' => some 8
  | _ => none

def escapeStep (seen : List Char) (c : Char) : QuotedStep :=
  if isBreak c then .next seen (.gap ⟨[], [none]⟩)
  else
    match escapedLetter c, escapeWidth c with
    | some letter, _ => .next (letter :: seen) .content
    | none, some width => .next seen (.code width 0)
    | none, none => .broken

def codeStep (seen : List Char) (missing value : Nat) (c : Char) : QuotedStep :=
  match Bytes.hexDigitValue c with
  | none => .broken
  | some digit =>
      let value := value * 16 + digit
      if missing > 1 then .next seen (.code (missing - 1) value)
      else if h : value.isValidChar then .next (Char.ofNatAux value h :: seen) .content
      else .broken

/-- The content of a quoted scalar and what follows its closing quote. -/
def scanQuoted (single : Bool) (seen : List Char) (state : QuotedState) :
    Source → Option (String × Source)
  | [] => none
  | c :: rest =>
      let step :=
        match state with
        | .content => contentStep single seen c.char
        | .gap gap =>
            if isBlank c.char ∨ isBreak c.char then .next seen (.gap (gap.push c.char))
            else if Source.atDocumentMarker (c :: rest) then .broken
            else contentStep single (gap.foldedReversed ++ seen) c.char
        | .escape => escapeStep seen c.char
        | .code missing value => codeStep seen missing value c.char
        | .quote => if c.char = '\'' then .next ('\'' :: seen) .content else .close seen
      match step with
      | .next seen state => scanQuoted single seen state rest
      | .close seen =>
          -- a single-quoted scalar is known to be closed one character later
          some (String.ofList seen.reverse, if single then c :: rest else rest)
      | .broken => none

end LogForwarding.Yaml
