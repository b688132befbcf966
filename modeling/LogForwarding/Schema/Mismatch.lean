import LogForwarding.Json.Printer
import LogForwarding.Text.Quoted

/-!
Why a JSON value is not of the wanted shape, where in the value that shows, and how it is told.
-/

namespace LogForwarding

/-- A difference between a value and the shape it should have. -/
inductive Mismatch where
  /-- A value of another kind. -/
  | wrongType (found : Json) (expected : String)
  /-- A value of the wanted kind that is not one of those which are wanted. -/
  | wrongValue (found : Json) (expected : String)
  /-- A list with too few or too many items. -/
  | wrongLength (length : Nat) (expected : String)
  | unknownField (name : String) (known : List String)
  | unknownVariant (name : String) (known : List String)
  | missingField (name : String)
  /-- A value that its type itself refuses. -/
  | refused (reason : String)
  /-- A difference of the member or the item at a position. -/
  | inside (position : Nat) (mismatch : Mismatch)
deriving DecidableEq, Inhabited

namespace Mismatch

private def ticked (text : String) : String :=
  "\x60" ++ text ++ "\x60"

/-- What a value is called in a message. -/
def nameOf : Json → String
  | .null => "null"
  | .bool value => "boolean " ++ ticked (if value then "true" else "false")
  | .int value => "integer " ++ ticked (toString value)
  | .float value => "floating point " ++ ticked value.toText
  | .str value => "string " ++ Text.quoted value
  | .arr _ => "sequence"
  | .obj _ => "map"

private def oneOf (nothing : String) : List String → String
  | [] => nothing
  | [only] => "expected " ++ ticked only
  | [first, second] => "expected " ++ ticked first ++ " or " ++ ticked second
  | many => "expected one of " ++ ", ".intercalate (many.map ticked)

def message : Mismatch → String
  | .wrongType found expected => "invalid type: " ++ nameOf found ++ ", expected " ++ expected
  | .wrongValue found expected => "invalid value: " ++ nameOf found ++ ", expected " ++ expected
  | .wrongLength length expected =>
      "invalid length " ++ toString length ++ ", expected " ++ expected
  | .unknownField name known =>
      "unknown field " ++ ticked name ++ ", " ++ oneOf "there are no fields" known
  | .unknownVariant name known =>
      "unknown variant " ++ ticked name ++ ", " ++ oneOf "there are no variants" known
  | .missingField name => "missing field " ++ ticked name
  | .refused reason => reason
  | .inside _ mismatch => mismatch.message

/-- The number of bytes of the compact text of a value. -/
def textSize (value : Json) : Nat :=
  value.print.utf8ByteSize

/-- The number of bytes in front of the colon of a member. -/
private def keySize (key : String) : Nat :=
  (Json.quotedText key).utf8ByteSize

/-- How much of the compact text of a value a reader has seen when it comes upon a mismatch.  It
reads texts, numbers and words to their end before it looks at them, but lists and objects of the
wrong kind it does not begin to read; what is missing in an object shows at its end. -/
def extent : Mismatch → Json → Nat
  | .inside position mismatch, .arr items =>
      let before := items.take position
      before.foldl (fun n item => n + textSize item + 1) 1
        + mismatch.extent (items.getD position .null)
  | .inside position mismatch, .obj members =>
      let before := members.take position
      let (key, value) := members.getD position ("", .null)
      before.foldl (fun n member => n + keySize member.1 + 1 + textSize member.2 + 1) 1
        + keySize key + 1 + mismatch.extent value
  | .wrongType (.arr _) _, _ => 0
  | .wrongType (.obj _) _, _ => 0
  | _, value => textSize value

end Mismatch

end LogForwarding
