import LogForwarding.Schema.Mismatch

/-!
Decoders of JSON values.  A record is described by its fields in declaration order.  Its members are
looked at in key order, so the mismatch of the first bad member is told; only then are fields found
missing, in declaration order.  A record may also be written as the list of its fields.
-/

namespace LogForwarding

/-- Reads a value of a type from JSON. -/
abbrev Decoder (α : Type) := Json → Except Mismatch α

namespace Decoder

def any : Decoder Json := fun value => .ok value

def text : Decoder String
  | .str value => .ok value
  | found => .error (.wrongType found "a string")

/-- A text that can only be this one. -/
def exactly (expected : String) : Decoder Unit := fun value => do
  let found ← text value
  if found = expected then return () else throw (.wrongValue value expected)

def boolean : Decoder Bool
  | .bool value => .ok value
  | found => .error (.wrongType found "a boolean")

def integer (name : String) (low high : Int) : Decoder Int
  | .int value =>
      if low ≤ value ∧ value ≤ high then .ok value else .error (.wrongValue (.int value) name)
  | found => .error (.wrongType found name)

def int32 : Decoder Int32 := fun value =>
  (integer "i32" (-(UInt32.size / 2)) (UInt32.size / 2 - 1) value).map Int32.ofInt

def int64 : Decoder Int64 := fun value =>
  (integer "i64" (-(UInt64.size / 2)) (UInt64.size / 2 - 1) value).map Int64.ofInt

def word16 : Decoder UInt16 := fun value =>
  (integer "u16" 0 (UInt16.size - 1) value).map fun n => UInt16.ofNat n.toNat

def word32 : Decoder UInt32 := fun value =>
  (integer "u32" 0 (UInt32.size - 1) value).map fun n => UInt32.ofNat n.toNat

def word64 : Decoder UInt64 := fun value =>
  (integer "u64" 0 (UInt64.size - 1) value).map fun n => UInt64.ofNat n.toNat

/-- Items from a position on, read one after the other. -/
def items {α : Type} (item : Decoder α) : Nat → List Json → Except Mismatch (List α)
  | _, [] => .ok []
  | position, value :: rest => do
      let first ← (item value).mapError (.inside position)
      let others ← items item (position + 1) rest
      return first :: others

def list {α : Type} (item : Decoder α) : Decoder (List α)
  | .arr values => items item 0 values
  | found => .error (.wrongType found "a sequence")

/-- Members from a position on, read one after the other. -/
def entries {α : Type} (item : Decoder α) :
    Nat → List (String × Json) → Except Mismatch (List (String × α))
  | _, [] => .ok []
  | position, (key, value) :: rest => do
      let first ← (item value).mapError (.inside position)
      let others ← entries item (position + 1) rest
      return (key, first) :: others

def dictionary {α : Type} (item : Decoder α) : Decoder (Dictionary α)
  | .obj members => entries item 0 members
  | found => .error (.wrongType found "a map")

def nullable {α : Type} (item : Decoder α) : Decoder (Option α)
  | .null => .ok none
  | value => (item value).map some

/-- One of some named variants, as its name or as the only member of an object that holds null. -/
def variant {α : Type} (variants : List (String × α)) : Decoder α := fun value =>
  let named (name : String) : Except Mismatch α :=
    match variants.find? fun entry => entry.1 = name with
    | some (_, result) => .ok result
    | none => .error (.unknownVariant name (variants.map (·.1)))
  match value with
  | .str name => named name
  | .obj [(name, content)] => do
      let result ← named name
      match content with
      | .null => return result
      | found => throw (.inside 0 (.wrongType found "unit"))
  | .obj members => .error (.wrongValue (.obj members) "map with a single key")
  | found => .error (.wrongType found "string or map")

end Decoder

/-- The fields of a record of type `α`. -/
structure Fields (α : Type) where
  /-- The names in declaration order. -/
  names : List String
  /-- Whether a member of a known name is of the wanted shape. -/
  check : String → Decoder Unit
  /-- The record of the members of an object, all of which passed the check. -/
  ofMembers : Dictionary Json → Except Mismatch α
  /-- The record of the items of a list, and the items behind it.  The number says how many items
  stood before; the text tells what is wanted when there are too few. -/
  ofItems : (expected : String) → Nat → List Json → Except Mismatch (α × List Json)

namespace Fields

variable {α β : Type}

/-- A field; `absent` is its value when an object has no such member, and `omitted` its value when a
list ends before it. -/
def field (name : String) (item : Decoder α) (absent omitted : Option α) : Fields α where
  names := [name]
  check key value := if key = name then (item value).map fun _ => () else .ok ()
  ofMembers members :=
    match Dictionary.find? members name with
    | some value => item value
    | none =>
        match absent with
        | some value => .ok value
        | none => .error (.missingField name)
  ofItems expected index values :=
    match values with
    | value :: rest =>
        ((item value).mapError (.inside index)).map fun result => (result, rest)
    | [] =>
        match omitted with
        | some value => .ok (value, [])
        | none => .error (.wrongLength index expected)

def required (name : String) (item : Decoder α) : Fields α :=
  field name item none none

/-- A field with a value of its own when it is missing. -/
def withDefault (name : String) (item : Decoder α) (value : α) : Fields α :=
  field name item (some value) (some value)

/-- A field that may be missing or null. -/
def optional (name : String) (item : Decoder α) : Fields (Option α) :=
  field name (Decoder.nullable item) (some none) (some none)

/-- A field that may be missing or null in an object, but has its place in a list. -/
def optionalMember (name : String) (item : Decoder α) : Fields (Option α) :=
  field name (Decoder.nullable item) (some none) none

protected def pure (value : α) : Fields α where
  names := []
  check _ _ := .ok ()
  ofMembers _ := .ok value
  ofItems _ _ values := .ok (value, values)

/-- A record whose last fields follow those of another. -/
protected def seq (first : Fields (α → β)) (second : Fields α) : Fields β where
  names := first.names ++ second.names
  check key value := do
    first.check key value
    second.check key value
  ofMembers members := do
    let make ← first.ofMembers members
    let value ← second.ofMembers members
    return make value
  ofItems expected index values := do
    let (make, rest) ← first.ofItems expected index values
    let (value, rest) ← second.ofItems expected (index + first.names.length) rest
    return (make value, rest)

instance : Applicative Fields where
  pure := Fields.pure
  seq first second := Fields.seq first (second ())

/-- Checks members from a position on, in order; names that are not known are refused when
`strict`. -/
def checkMembers (fields : Fields α) (strict : Bool) :
    Nat → List (String × Json) → Except Mismatch Unit
  | _, [] => .ok ()
  | position, (key, value) :: rest => do
      if key ∈ fields.names then (fields.check key value).mapError (.inside position)
      else if strict then throw (.unknownField key fields.names)
      checkMembers fields strict (position + 1) rest

/-- How many fields a record of some name has. -/
def expectation (fields : Fields α) (type : String) : String :=
  let count := fields.names.length
  "struct " ++ type ++ " with " ++ toString count ++ (if count = 1 then " element" else " elements")

def decoder (fields : Fields α) (type : String) (strict : Bool) : Decoder α
  | .obj members => do
      fields.checkMembers strict 0 members
      fields.ofMembers members
  | .arr values => do
      let (result, rest) ← fields.ofItems (fields.expectation type) 0 values
      if rest = [] then return result
      else throw (.wrongLength values.length "fewer elements in array")
  | found => .error (.wrongType found ("struct " ++ type))

/-- The decoder of a record that is never written as a list. -/
def objectDecoder (fields : Fields α) (type : String) : Decoder α
  | .obj members => do
      fields.checkMembers false 0 members
      fields.ofMembers members
  | found => .error (.wrongType found type)

end Fields

/-- The object of the members that are present. -/
def Json.ofFields (members : List (String × Option Json)) : Json :=
  Json.object (members.filterMap fun (name, value) => value.map fun v => (name, v))

end LogForwarding
