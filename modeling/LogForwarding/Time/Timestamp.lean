import LogForwarding.Text.Blank

/-!
Points in time as text: a date, a time of day and an offset from universal time, such as
`2024-05-01T10:00:00Z`.  Blanks may stand between the parts of a date or a time, and a number may
have fewer digits than usual.  A text that is no point in time is told why, at the first part that
cannot be read.
-/

namespace LogForwarding

/-- Why a text is no point in time. -/
inductive TimestampError where
  | tooShort
  | invalid
  | outOfRange
  | tooLong
deriving DecidableEq, Repr, Inhabited

def TimestampError.message : TimestampError → String
  | .tooShort => "premature end of input"
  | .invalid => "input contains invalid characters"
  | .outOfRange => "input is out of range"
  | .tooLong => "trailing input"

/-- A point in time. -/
structure Timestamp where
  year : Int
  month : Nat
  day : Nat
  hour : Nat
  minute : Nat
  /-- Up to 60, for a leap second. -/
  second : Nat
  /-- How far the clock is ahead of universal time, in seconds. -/
  offset : Int
deriving DecidableEq, Repr, Inhabited

namespace Timestamp

/-- Reads a part of a text from its beginning. -/
abbrev Scan (α : Type) := StateT (List Char) (Except TimestampError) α

private def skipBlank : Scan Unit :=
  modify fun cs => cs.dropWhile Text.isBlank

private def oneOf (allowed : List Char) : Scan Unit := do
  match ← get with
  | [] => throw .tooShort
  | c :: rest => if c ∈ allowed then set rest else throw .invalid

/-- A number of one digit at least and, if there is a limit, no more digits than that. -/
private def number (limit : Option Nat) : Scan Nat := do
  let cs ← get
  let digits := ((limit.elim cs cs.take).takeWhile Char.isDigit)
  if cs = [] then throw .tooShort
  if digits = [] then throw .invalid
  set (cs.drop digits.length)
  return digits.foldl (fun n c => n * 10 + (c.toNat - '0'.toNat)) 0

/-- A number of two digits at most and within bounds, behind blanks. -/
private def part (low high : Nat) : Scan Nat := do
  skipBlank
  let n ← number (some 2)
  if low ≤ n ∧ n ≤ high then return n else throw .outOfRange

/-- A year of four digits at most, or of any number of digits behind a sign. -/
private def scanYear : Scan Int := do
  skipBlank
  let year : Int ←
    match ← get with
    | '-' :: rest =>
        set rest
        let n ← number none
        pure (-(n : Int))
    | '+' :: rest =>
        set rest
        let n ← number none
        pure (n : Int)
    | _ =>
        let n ← number (some 4)
        pure (n : Int)
  if -(UInt32.size / 2 : Int) ≤ year ∧ year < (UInt32.size / 2 : Int) then return year
  else throw .outOfRange

private def separator (c : Char) : Scan Unit := do
  skipBlank
  oneOf [c]

/-- The fraction of a second, which does not count. -/
private def fraction : Scan Unit := do
  match ← get with
  | '.' :: rest =>
      set rest
      let _ ← number none
  | _ => return ()

private def twoDigits : Scan (Char × Char) := do
  match ← get with
  | a :: b :: rest =>
      if a.isDigit ∧ b.isDigit then
        set rest
        return (a, b)
      else throw .invalid
  | [c] => throw (if c.toNat < 0x80 then .tooShort else .invalid)
  | [] => throw .tooShort

private def value (digits : Char × Char) : Nat :=
  (digits.1.toNat - '0'.toNat) * 10 + (digits.2.toNat - '0'.toNat)

/-- An offset behind its sign: hours and minutes, with colons or blanks between them. -/
private def offsetSize : Scan Nat := do
  let hours ← twoDigits
  modify fun cs => cs.dropWhile fun c => c = ':' ∨ Text.isBlank c
  let minutes ← twoDigits
  if 60 ≤ value minutes then throw .outOfRange
  return value hours * 3600 + value minutes * 60

/-- An offset: a letter for none, or hours and minutes behind a sign. -/
private def scanOffset : Scan Int := do
  match ← get with
  | [] => throw .tooShort
  | c :: rest =>
      if ((c :: rest).take 3).map Char.toUpper = ['U', 'T', 'C'] then
        set (rest.drop 2)
        return 0
      else
        set rest
        if c = 'Z' ∨ c = 'z' then return 0
        else if c = '+' then
          let size ← offsetSize
          return size
        else if c = '-' ∨ c = '\u2212' then
          let size ← offsetSize
          return -(size : Int)
        else throw .invalid

/-- A point in time, whether or not there is such a day or such an offset. -/
private def scan : Scan Timestamp := do
  let year ← scanYear
  separator '-'
  let month ← part 1 12
  separator '-'
  let day ← part 1 31
  oneOf ['t', 'T', ' ']
  let hour ← part 0 23
  separator ':'
  let minute ← part 0 59
  separator ':'
  let second ← part 0 60
  fraction
  skipBlank
  let offset ← scanOffset
  skipBlank
  if (← get) ≠ [] then throw .tooLong
  return ⟨year, month, day, hour, minute, second, offset⟩

def daysIn (year : Int) (month : Nat) : Nat :=
  if month = 2 then
    if year % 4 = 0 ∧ (year % 100 ≠ 0 ∨ year % 400 = 0) then 29 else 28
  else if month = 4 ∨ month = 6 ∨ month = 9 ∨ month = 11 then 30
  else 31

/-- The last year that is reckoned with; the first one is as far away on the other side. -/
def lastYear : Int := 262142

/-- The point in time that a text spells. -/
def read (text : String) : Except TimestampError Timestamp := do
  let (time, _) ← scan.run text.toList
  if time.day ≤ daysIn time.year time.month ∧ time.offset.natAbs < 86400
      ∧ -(lastYear + 1) ≤ time.year ∧ time.year ≤ lastYear then return time
  else throw .outOfRange

end Timestamp

end LogForwarding
