import LogForwarding.Bytes.Basic
import LogForwarding.Json.Basic

/-!
Reading JSON text.  Integers that fit a signed or an unsigned 64-bit word stay integers; any other
number becomes a binary floating point number, read in two roundings: the significand first, then
its product or quotient with a power of ten.
-/

namespace LogForwarding.Json

def skipBlanks (cs : List Char) : List Char :=
  cs.dropWhile fun c => c = ' ' ∨ c = '\t' ∨ c = '\n' ∨ c = '\r'

/-- A code unit: the number of four hexadecimal digits, and the text after them. -/
def readUnit (cs : List Char) : Option (Nat × List Char) :=
  if cs.length < 4 then none
  else
    let unit := (cs.take 4).foldlM (fun n c => (Bytes.hexDigitValue c).map (n * 16 + ·)) 0
    unit.map fun n => (n, cs.drop 4)

/-- The character of an escape with a single letter. -/
def simpleEscape (c : Char) : Option Char :=
  match c with
  | '"' => some '"'
  | '\\' => some '\\'
  | '/' => some '/'
  | 'b' => some '\x08'
  | 'f' => some '\x0c'
  | 'n' => some '\n'
  | 'r' => some '\r'
  | 't' => some '\t'
  | _ => none

/-- A code point that is no surrogate, as a character. -/
def charOfCode? (code : Nat) : Option Char :=
  if h : code.isValidChar then some (Char.ofNatAux code h) else none

/-- The character of one or, for a character above the basic plane, two code units. -/
def readUnits (cs : List Char) : Option (Char × List Char) := do
  let (high, rest) ← readUnit cs
  if 0xD800 ≤ high ∧ high < 0xDC00 then
    match rest with
    | '\\' :: 'u' :: rest =>
        let (low, rest) ← readUnit rest
        if 0xDC00 ≤ low ∧ low < 0xE000 then
          let c ← charOfCode? (0x10000 + (high - 0xD800) * 0x400 + (low - 0xDC00))
          return (c, rest)
        else none
    | _ => none
  else
    let c ← charOfCode? high
    return (c, rest)

/-- The characters up to the closing quote, with escapes resolved, and what follows the quote. -/
def readQuoted : (fuel : Nat) → (seen cs : List Char) → Option (String × List Char)
  | 0, _, _ => none
  | fuel + 1, seen, cs =>
      match cs with
      | [] => none
      | '"' :: rest => some (String.ofList seen.reverse, rest)
      | '\\' :: 'u' :: rest =>
          match readUnits rest with
          | some (c, rest) => readQuoted fuel (c :: seen) rest
          | none => none
      | '\\' :: c :: rest =>
          match simpleEscape c with
          | some ch => readQuoted fuel (ch :: seen) rest
          | none => none
      | c :: rest => if c.toNat < 0x20 then none else readQuoted fuel (c :: seen) rest

/-- The largest significand that is kept in full. -/
private def maxWord : Nat := UInt64.size - 1

/-- The number of a list of decimal digits. -/
def ofDigits (digits : List Char) : Nat :=
  digits.foldl (fun n c => n * 10 + (c.toNat - '0'.toNat)) 0

/-- Digits taken into the significand while it fits a word, and the digits left over. -/
private def takeDigits (significand : Nat) : List Char → Nat × List Char
  | [] => (significand, [])
  | c :: rest =>
      let next := significand * 10 + (c.toNat - '0'.toNat)
      if next ≤ maxWord then takeDigits next rest else (significand, c :: rest)

/-- A significand scaled by a power of ten, each of the two rounded first. -/
private def scaled (negative : Bool) (significand : Nat) (exponent : Int) : Binary64 :=
  let (num, den) := (Binary64.ofInt significand).toFraction
  if significand = 0 then Binary64.ofFields negative 0
  else if exponent < -400 then Binary64.ofFields negative 0
  else if 400 < exponent then Binary64.infinity negative
  else if 308 < exponent.natAbs then
    Binary64.ofDecimal negative significand exponent
  else
    let (pnum, pden) := (Binary64.ofDecimal false 1 exponent.natAbs).toFraction
    if 0 ≤ exponent then Binary64.ofFraction negative (num * pnum) (den * pden)
    else Binary64.ofFraction negative (num * pden) (den * pnum)

/-- A number without leading zeros and the text after it. -/
def readNumber (cs : List Char) : Option (Json × List Char) :=
  let (negative, cs) := match cs with
    | '-' :: rest => (true, rest)
    | _ => (false, cs)
  let whole := cs.takeWhile Char.isDigit
  let cs := cs.dropWhile Char.isDigit
  if whole = [] ∨ (whole.length > 1 ∧ whole.head? = some '0') then none
  else
    let (fraction, cs, fractional) := match cs with
      | '.' :: rest => (rest.takeWhile Char.isDigit, rest.dropWhile Char.isDigit, true)
      | _ => ([], cs, false)
    let (mark, cs) := match cs with
      | c :: rest => if c = 'e' ∨ c = 'E' then (true, rest) else (false, cs)
      | [] => (false, [])
    let (downward, cs) := match mark, cs with
      | true, '-' :: rest => (true, rest)
      | true, '+' :: rest => (false, rest)
      | _, _ => (false, cs)
    let power := if mark then cs.takeWhile Char.isDigit else []
    let cs := if mark then cs.dropWhile Char.isDigit else cs
    if (fractional ∧ fraction = []) ∨ (mark ∧ power = []) then none
    else
      let n := ofDigits whole
      let fits := if negative then n ≤ UInt64.size / 2 ∧ n ≠ 0 else n < UInt64.size
      if ¬ fractional ∧ ¬ mark ∧ fits then
        some (.int (if negative then -(n : Int) else n), cs)
      else
        let (significand, left) := takeDigits 0 whole
        let (significand, exponent) :=
          if left = [] then
            let (s, dropped) := takeDigits significand fraction
            (s, -((fraction.length - dropped.length : Nat) : Int))
          else (significand, (left.length : Int))
        let step : Int := ofDigits power
        let x := scaled negative significand (exponent + (if downward then -step else step))
        if x.isFinite then some (.float x, cs) else none

/-- The rest of a text after a word. -/
def afterWord (word : String) (cs : List Char) : Option (List Char) :=
  let w := word.toList
  if w.isPrefixOf cs then some (cs.drop w.length) else none

mutual

/-- A value and the text after it; `fuel` bounds the number of tokens. -/
def readValue : (fuel : Nat) → List Char → Option (Json × List Char)
  | 0, _ => none
  | fuel + 1, cs =>
      match skipBlanks cs with
      | '"' :: rest => (readQuoted (fuel + 1) [] rest).map fun (text, rest) => (.str text, rest)
      | '[' :: rest =>
          match skipBlanks rest with
          | ']' :: rest => some (.arr [], rest)
          | _ => (readItems fuel rest).map fun (items, rest) => (.arr items, rest)
      | '\x7b' :: rest =>
          match skipBlanks rest with
          | '\x7d' :: rest => some (.obj [], rest)
          | _ => (readMembers fuel rest).map fun (members, rest) => (object members, rest)
      | 'n' :: rest => (afterWord "ull" rest).map fun rest => (.null, rest)
      | 't' :: rest => (afterWord "rue" rest).map fun rest => (.bool true, rest)
      | 'f' :: rest => (afterWord "alse" rest).map fun rest => (.bool false, rest)
      | cs => readNumber cs

/-- The items of a list up to its closing bracket. -/
def readItems : (fuel : Nat) → List Char → Option (List Json × List Char)
  | 0, _ => none
  | fuel + 1, cs => do
      let (item, rest) ← readValue fuel cs
      match skipBlanks rest with
      | ']' :: rest => return ([item], rest)
      | ',' :: rest =>
          let (items, rest) ← readItems fuel rest
          return (item :: items, rest)
      | _ => none

/-- The members of an object up to its closing brace. -/
def readMembers : (fuel : Nat) → List Char → Option (List (String × Json) × List Char)
  | 0, _ => none
  | fuel + 1, cs =>
      match skipBlanks cs with
      | '"' :: rest => do
          let (key, rest) ← readQuoted (fuel + 1) [] rest
          match skipBlanks rest with
          | ':' :: rest =>
              let (value, rest) ← readValue fuel rest
              match skipBlanks rest with
              | '\x7d' :: rest => return ([(key, value)], rest)
              | ',' :: rest =>
                  let (members, rest) ← readMembers fuel rest
                  return ((key, value) :: members, rest)
              | _ => none
          | _ => none
      | _ => none

end

/-- The value that a text spells, with nothing but blanks around it. -/
def read? (text : String) : Option Json :=
  let cs := text.toList
  match readValue (2 * cs.length + 1) cs with
  | some (value, rest) => if skipBlanks rest = [] then some value else none
  | none => none

end LogForwarding.Json
