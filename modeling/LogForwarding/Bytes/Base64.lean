import LogForwarding.Bytes.Basic

/-!
Base64 with the standard alphabet and padding.  Reading accepts exactly the text that writing
produces: padding is required and the unused bits of the last digit are zero.
-/

namespace LogForwarding.Base64

def digit (n : Nat) : Char :=
  if n < 26 then Char.ofNat (n + 'A'.toNat)
  else if n < 52 then Char.ofNat (n - 26 + 'a'.toNat)
  else if n < 62 then Char.ofNat (n - 52 + '0'.toNat)
  else if n = 62 then '+'
  else '/'

def value (c : Char) : Option Nat :=
  if 'A' ≤ c ∧ c ≤ 'Z' then some (c.toNat - 'A'.toNat)
  else if 'a' ≤ c ∧ c ≤ 'z' then some (c.toNat - 'a'.toNat + 26)
  else if '0' ≤ c ∧ c ≤ '9' then some (c.toNat - '0'.toNat + 52)
  else if c = '+' then some 62
  else if c = '/' then some 63
  else none

/-- The digits of a sequence of bytes: four for three bytes, the last group padded. -/
def encodeDigits : Bytes → List Char
  | [] => []
  | [a] =>
      let n := a.toNat
      [digit (n / 4), digit (n % 4 * 16), '=', '=']
  | [a, b] =>
      let n := a.toNat * 256 + b.toNat
      [digit (n / 1024), digit (n / 16 % 64), digit (n % 16 * 4), '=']
  | a :: b :: c :: rest =>
      let n := (a.toNat * 256 + b.toNat) * 256 + c.toNat
      digit (n / 262144) :: digit (n / 4096 % 64) :: digit (n / 64 % 64) :: digit (n % 64) ::
        encodeDigits rest

/-- The bytes of a text of digits in groups of four, only the last one padded. -/
def decodeDigits : List Char → Option Bytes
  | [] => some []
  | [a, b, '=', '='] => do
      let n := (← value a) * 64 + (← value b)
      if n % 16 = 0 then some [UInt8.ofNat (n / 16)] else none
  | [a, b, c, '='] => do
      let n := ((← value a) * 64 + (← value b)) * 64 + (← value c)
      if n % 4 = 0 then some [UInt8.ofNat (n / 1024), UInt8.ofNat (n / 4 % 256)] else none
  | a :: b :: c :: d :: rest => do
      let n := (((← value a) * 64 + (← value b)) * 64 + (← value c)) * 64 + (← value d)
      let bytes ← decodeDigits rest
      return [UInt8.ofNat (n / 65536), UInt8.ofNat (n / 256 % 256), UInt8.ofNat (n % 256)] ++ bytes
  | _ => none

/-- The Base64 text of a sequence of bytes. -/
def encode (bytes : Bytes) : String :=
  String.ofList (encodeDigits bytes)

def decode? (text : String) : Option Bytes :=
  decodeDigits text.toList

/-- What is wrong with a text that is no Base64 text. -/
inductive Fault where
  /-- A byte that is no digit, or padding that does not stand at the end. -/
  | symbol (byte : UInt8) (offset : Nat)
  /-- A single digit in the last group. -/
  | length (size : Nat)
  | padding
  /-- A last digit with bits that do not belong to a byte. -/
  | lastSymbol (byte : UInt8) (offset : Nat)
deriving DecidableEq, Repr, Inhabited

namespace Fault

def message : Fault → String
  | .symbol byte offset =>
      "Invalid symbol " ++ toString byte.toNat ++ ", offset " ++ toString offset ++ "."
  | .length size => "Invalid input length: " ++ toString size
  | .padding => "Invalid padding"
  | .lastSymbol byte offset =>
      "Invalid last symbol " ++ toString byte.toNat ++ ", offset " ++ toString offset ++ "."

private def isDigit (byte : UInt8) : Bool :=
  (value (Char.ofNat byte.toNat)).isSome

private def padByte : UInt8 := 61

/-- The first byte that is no digit, at an offset and behind it. -/
private def firstSymbol? (offset : Nat) : Bytes → Option Fault
  | [] => none
  | byte :: rest =>
      if isDigit byte then firstSymbol? (offset + 1) rest else some (.symbol byte offset)

/-- The fault of the last group, of which the digits so far are in reverse and the number of padding
bytes so far is given. -/
private def ofLastGroup (start : Nat) (digits : Bytes) (pads : Nat) : Bytes → Fault
  | [] =>
      match digits with
      | [] | [_] => .length (start + digits.length)
      | last :: _ =>
          if (digits.length + pads) % 4 ≠ 0 then .padding
          else .lastSymbol last (start + digits.length - 1)
  | byte :: rest =>
      if byte = padByte then
        if digits.length + pads < 2 then .symbol byte (start + digits.length + pads)
        else ofLastGroup start digits (pads + 1) rest
      else if pads ≠ 0 then .symbol padByte (start + digits.length)
      else if isDigit byte then ofLastGroup start (byte :: digits) pads rest
      else .symbol byte (start + digits.length)

/-- What is wrong with a text.  The groups of four bytes are looked at from the first one on; but a
single byte behind the last whole group that is neither a digit nor padding is told at once. -/
def ofText (text : String) : Fault :=
  let bytes := Bytes.ofText text
  let odd := bytes.length % 4
  let start := bytes.length - (if odd = 0 then 4 else odd)
  let stray := if odd = 1 then (bytes.getLast?.filter (· ≠ padByte)) else none
  match stray.bind fun byte => firstSymbol? start [byte] with
  | some fault => fault
  | none =>
      match firstSymbol? 0 (bytes.take start) with
      | some fault => fault
      | none => ofLastGroup start [] 0 (bytes.drop start)

end Fault

end LogForwarding.Base64
