/-!
Sequences of bytes, the UTF-8 bytes of a text and hexadecimal text.
-/

namespace LogForwarding

abbrev Bytes := List UInt8

namespace Bytes

def ofText (text : String) : Bytes :=
  text.toUTF8.toList

/-- The text that the bytes spell, if they are well-formed UTF-8. -/
def toText? (bytes : Bytes) : Option String :=
  String.fromUTF8? (ByteArray.mk bytes.toArray)

/-- The four bytes of a word, the most significant first. -/
def ofWord (word : UInt32) : Bytes :=
  [(word >>> 24).toUInt8, (word >>> 16).toUInt8, (word >>> 8).toUInt8, word.toUInt8]

/-- The two lower-case hexadecimal digits of a byte. -/
def hexDigits (byte : UInt8) : List Char :=
  [Nat.digitChar (byte.toNat / 16), Nat.digitChar (byte.toNat % 16)]

def toHex (bytes : Bytes) : String :=
  String.ofList (bytes.flatMap hexDigits)

def hexDigitValue (c : Char) : Option Nat :=
  if '0' ≤ c ∧ c ≤ '9' then some (c.toNat - '0'.toNat)
  else if 'a' ≤ c ∧ c ≤ 'f' then some (c.toNat - 'a'.toNat + 10)
  else if 'A' ≤ c ∧ c ≤ 'F' then some (c.toNat - 'A'.toNat + 10)
  else none

/-- The bytes of hexadecimal digits, two a byte. -/
private def ofHexDigits : List Char → Option Bytes
  | [] => some []
  | [_] => none
  | high :: low :: rest => do
      let byte := (← hexDigitValue high) * 16 + (← hexDigitValue low)
      return UInt8.ofNat byte :: (← ofHexDigits rest)

def ofHex? (text : String) : Option Bytes :=
  ofHexDigits text.toList

end Bytes

end LogForwarding
