import LogForwarding.Json.Basic
import LogForwarding.Yaml.Token.Basic

/-!
The values that scalars stand for.  Only plain scalars have a value other than their text, unless a
tag asks for one.
-/

namespace LogForwarding.Yaml

def isNullWord (text : String) : Bool :=
  text ∈ ["~", "null", "Null", "NULL"]

def boolOfWord (text : String) : Option Bool :=
  if text ∈ ["true", "True", "TRUE"] then some true
  else if text ∈ ["false", "False", "FALSE"] then some false
  else none

/-- The rest of a text after a beginning. -/
def afterStart (start text : List Char) : Option (List Char) :=
  if start.isPrefixOf text then some (text.drop start.length) else none

/-- The value of a digit in a base up to sixteen. -/
def digitIn (base : Nat) (c : Char) : Option Nat :=
  (Bytes.hexDigitValue c).filter (· < base)

/-- The number of a non-empty list of digits. -/
def ofDigitsIn (base : Nat) (digits : List Char) : Option Nat :=
  if digits = [] then none
  else digits.foldlM (fun n c => (digitIn base c).map (n * base + ·)) 0

/-- Digits behind one of the marks `0x`, `0o` and `0b`. -/
def ofMarkedDigits (text : List Char) : Option Nat :=
  [("0x", 16), ("0o", 8), ("0b", 2)].findSome? fun (mark, base) =>
    (afterStart mark.toList text).bind (ofDigitsIn base)

/-- Digits with a leading zero, possibly behind a sign: such a text is no number. -/
def hasLeadingZero (text : List Char) : Bool :=
  let digits := match text with
    | '-' :: rest => rest
    | '+' :: rest => rest
    | _ => text
  match digits with
  | '0' :: c :: rest => (c :: rest).all Char.isDigit
  | _ => false

/-- An integer: decimal digits, or digits behind a mark, with one sign at most. -/
def intOfText (text : String) : Option Int :=
  let cs := text.toList
  let (negative, digits) := match cs with
    | '-' :: rest => (true, rest)
    | '+' :: rest => (false, rest)
    | _ => (false, cs)
  let magnitude :=
    match ofMarkedDigits digits with
    | some n => some n
    | none => if hasLeadingZero cs then none else ofDigitsIn 10 digits
  magnitude.map fun n => if negative then -(n : Int) else n

/-- The digits behind a point, if there is one, and the rest. -/
def readFraction : List Char → List Char × List Char
  | '.' :: rest => (rest.takeWhile Char.isDigit, rest.dropWhile Char.isDigit)
  | cs => ([], cs)

/-- The power of ten behind the digits of a number: none, or a mark and digits with one sign at
most. -/
def readExponent : List Char → Option Int
  | [] => some 0
  | mark :: rest =>
      if mark = 'e' ∨ mark = 'E' then
        let (sign, digits) : Int × List Char := match rest with
          | '-' :: digits => (-1, digits)
          | '+' :: digits => (1, digits)
          | digits => (1, digits)
        (ofDigitsIn 10 digits).map fun n => sign * n
      else none

/-- A decimal number: digits with at most one point among or around them, and an exponent. -/
def decimalOfText (negative : Bool) (cs : List Char) : Option Binary64 :=
  let whole := cs.takeWhile Char.isDigit
  let (fraction, rest) := readFraction (cs.dropWhile Char.isDigit)
  if whole = [] ∧ fraction = [] then none
  else
    match readExponent rest, ofDigitsIn 10 (whole ++ fraction) with
    | some e, some digits => some (Binary64.ofDecimal negative digits (e - fraction.length))
    | _, _ => none

/-- A number with a fraction or an exponent, or one of the words for what is no finite number. -/
def floatOfText (text : String) : Option Binary64 :=
  let cs := text.toList
  let unsigned := match cs with
    | '+' :: rest => rest
    | _ => cs
  if String.ofList unsigned ∈ [".inf", ".Inf", ".INF"] then some (Binary64.infinity false)
  else if text ∈ ["-.inf", "-.Inf", "-.INF"] then some (Binary64.infinity true)
  else if text ∈ [".nan", ".NaN", ".NAN"] then some ⟨0x7ff8000000000000⟩
  else
    let value := match cs with
      | '-' :: rest => decimalOfText true rest
      | _ => decimalOfText false unsigned
    value.filter Binary64.isFinite

/-- An integer that fits a signed or an unsigned 64-bit word. -/
def fitsWord (n : Int) : Bool :=
  -(UInt64.size / 2 : Int) ≤ n ∧ n < UInt64.size

/-- An integer that fits a signed or an unsigned 128-bit word. -/
def fitsDoubleWord (n : Int) : Bool :=
  -(UInt64.size * UInt64.size / 2 : Int) ≤ n ∧ n < UInt64.size * UInt64.size

/-- A number as a JSON value; there are no values for infinite numbers. -/
def jsonOfFloat (x : Binary64) : Json :=
  if x.isFinite then .float x else .null

/-- What an integer in a text becomes: a value, a refusal when it is too wide for a word, or nothing
when the text holds no integer or an excessively wide one. -/
def jsonOfInt (text : String) : Option (Option Json) :=
  match intOfText text with
  | some n =>
      if fitsWord n then some (some (.int n))
      else if fitsDoubleWord n then some none
      else none
  | none => none

/-- The value of a plain scalar without a tag. -/
def plainValue (text : String) : Option Json :=
  if text = "" ∨ isNullWord text then some .null
  else
    match boolOfWord text with
    | some b => some (.bool b)
    | none =>
        match jsonOfInt text with
        | some value => value
        | none =>
            if hasLeadingZero text.toList then some (.str text)
            else
              match floatOfText text with
              | some x => some (jsonOfFloat x)
              | none => some (.str text)

def standardTag (name : String) : String :=
  "tag:yaml.org,2002:" ++ name

/-- The tag of an application, which no value can bear. -/
def isLocalTag (tag : String) : Bool :=
  tag.toList.head? = some '!'

/-- The value of a scalar; `none` if a tag asks for a value that the text does not spell. -/
def scalarValue (text : String) (style : ScalarStyle) (tag : Option String) : Option Json :=
  match tag with
  | none => if style = .plain then plainValue text else some (.str text)
  | some tag =>
      if isLocalTag tag then none
      else if tag = standardTag "bool" then (boolOfWord text).map .bool
      else if tag = standardTag "int" then (jsonOfInt text).join
      else if tag = standardTag "float" then (floatOfText text).map jsonOfFloat
      else if tag = standardTag "null" then if isNullWord text then some .null else none
      else some (.str text)

end LogForwarding.Yaml
