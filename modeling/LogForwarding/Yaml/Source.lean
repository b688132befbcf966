import LogForwarding.Bytes.Basic

/-!
The characters of a YAML stream, each with its place.  Line breaks are unified here, characters that
a stream may not hold are refused, and a NUL character, which no stream may hold, marks the end.
-/

namespace LogForwarding.Yaml

/-- A character and its place in the stream; all counts start at zero. -/
structure Sited where
  char : Char
  index : Nat
  line : Nat
  column : Nat
deriving DecidableEq, Repr, Inhabited

/-- The characters that are still to be read. -/
abbrev Source := List Sited

/-- The byte order mark, which is passed over where it begins a line. -/
def byteOrderMark : Char := '\ufeff'

def endMark : Char := '\x00'

def isBlank (c : Char) : Bool :=
  c = ' ' ∨ c = '\t'

/-- A line break, all kinds but the two Unicode separators having become a line feed. -/
def isBreak (c : Char) : Bool :=
  c = '\n' ∨ c = '\u2028' ∨ c = '\u2029'

def isBreakOrEnd (c : Char) : Bool :=
  isBreak c ∨ c = endMark

/-- A blank, a line break or the end. -/
def isBlankOrEnd (c : Char) : Bool :=
  isBlank c ∨ isBreakOrEnd c

/-- A character of a name: ASCII letters and digits, the underscore and the hyphen. -/
def isNameChar (c : Char) : Bool :=
  c.isAlphanum ∨ c = '_' ∨ c = '-'

def isAllowed (c : Char) : Bool :=
  let n := c.toNat
  n = 0x9 ∨ n = 0xA ∨ n = 0xD ∨ (0x20 ≤ n ∧ n ≤ 0x7E) ∨ n = 0x85 ∨ (0xA0 ≤ n ∧ n ≤ 0xD7FF) ∨
    (0xE000 ≤ n ∧ n ≤ 0xFFFD) ∨ 0x10000 ≤ n

/-- The character at the head, the end mark when nothing is left. -/
def Source.peek (source : Source) : Char :=
  match source with
  | [] => endMark
  | c :: _ => c.char

def Source.peekAt (source : Source) (offset : Nat) : Char :=
  Source.peek (source.drop offset)

def Source.site (source : Source) : Sited :=
  source.headD ⟨endMark, 0, 0, 0⟩

/-- Gives each character its place.  A carriage return with its line feed, either of them alone and
the next-line character are one line feed. -/
def locate (index line column : Nat) : List Char → Source
  | [] => [⟨endMark, index, line, column⟩]
  | '\r' :: '\n' :: rest => ⟨'\n', index, line, column⟩ :: locate (index + 2) (line + 1) 0 rest
  | c :: rest =>
      if c = '\n' ∨ c = '\r' ∨ c = '\u0085' then
        ⟨'\n', index, line, column⟩ :: locate (index + 1) (line + 1) 0 rest
      else if isBreak c then ⟨c, index, line, column⟩ :: locate (index + 1) (line + 1) 0 rest
      else ⟨c, index, line, column⟩ :: locate (index + 1) line (column + 1) rest

/-- The code units of a sequence of byte pairs. -/
private def codeUnits (bigEndian : Bool) : Bytes → Option (List Nat)
  | [] => some []
  | [_] => none
  | a :: b :: rest =>
      let unit := if bigEndian then a.toNat * 256 + b.toNat else b.toNat * 256 + a.toNat
      (codeUnits bigEndian rest).map (unit :: ·)

/-- The characters of a sequence of 16-bit code units, surrogates being paired. -/
private def ofCodeUnits : List Nat → Option (List Char)
  | [] => some []
  | high :: low :: rest =>
      if 0xD800 ≤ high ∧ high < 0xDC00 then
        if 0xDC00 ≤ low ∧ low < 0xE000 then
          let code := 0x10000 + (high - 0xD800) * 0x400 + (low - 0xDC00)
          (ofCodeUnits rest).map (Char.ofNat code :: ·)
        else none
      else if 0xDC00 ≤ high ∧ high < 0xE000 then none
      else (ofCodeUnits (low :: rest)).map (Char.ofNat high :: ·)
  | [unit] => if 0xD800 ≤ unit ∧ unit < 0xE000 then none else some [Char.ofNat unit]

/-- The characters of a stream of bytes: UTF-8, or UTF-16 after a byte order mark that says so. -/
def decodeStream (bytes : Bytes) : Option (List Char) :=
  match bytes with
  | 0xFF :: 0xFE :: rest => (codeUnits false rest).bind ofCodeUnits
  | 0xFE :: 0xFF :: rest => (codeUnits true rest).bind ofCodeUnits
  | 0xEF :: 0xBB :: 0xBF :: rest => (Bytes.toText? rest).map String.toList
  | _ => (Bytes.toText? bytes).map String.toList

/-- The located characters of a stream, if it holds only allowed ones. -/
def Source.ofBytes? (bytes : Bytes) : Option Source := do
  let chars ← decodeStream bytes
  if chars.all isAllowed then some (locate 0 0 0 chars) else none

/-- Passes blanks, a comment and the line break; nothing else may stand before the end of the
line. -/
def Source.finishLine? (source : Source) : Option Source :=
  let rest : Source := source.dropWhile fun c => isBlank c.char
  let rest : Source :=
    if rest.peek = '#' then rest.dropWhile fun c => ¬ isBreakOrEnd c.char else rest
  if isBreak rest.peek then some (rest.drop 1)
  else if rest.peek = endMark then some rest
  else none

/-- A document marker at the head: three equal characters at the start of a line. -/
def Source.atMarker (source : Source) (mark : Char) : Bool :=
  source.site.column = 0 ∧ (source.take 3).map Sited.char = [mark, mark, mark] ∧
    isBlankOrEnd (source.peekAt 3)

def Source.atDocumentMarker (source : Source) : Bool :=
  source.atMarker '-' ∨ source.atMarker '.'

end LogForwarding.Yaml
