import LogForwarding.Json.Basic

/-!
Changes of stored objects: merge patches, which name what is to be different, and lists of
operations at places of the object, which are carried out together or not at all.
-/

namespace LogForwarding

namespace Json

mutual

/-- The value that a merge patch makes of a value: the members of the patch are merged in one by
one, and a patch that is no object takes the place of the value. -/
def merge : Json → Json → Json
  | .obj changes, .obj members => .obj (mergeMembers changes members)
  | .obj changes, _ => .obj (mergeMembers changes [])
  | other, _ => other

/-- The members that the members of a merge patch make of others.  A null takes a member away. -/
def mergeMembers : List (String × Json) → Dictionary Json → Dictionary Json
  | [], members => members
  | (key, .null) :: rest, members => mergeMembers rest (Dictionary.erase key members)
  | (key, change) :: rest, members =>
      mergeMembers rest
        (Dictionary.insert key (merge change ((Dictionary.find? members key).getD .null)) members)

end

end Json

/-- An operation at a place of an object.  A place is named by the keys and positions on the way to
it, and `-` names the end of a list. -/
inductive PatchOperation where
  /-- Nothing is to be done unless the value at the place is this one. -/
  | test (place : List String) (value : Json)
  | add (place : List String) (value : Json)
  | remove (place : List String)
deriving DecidableEq, Inhabited

namespace PatchOperation

def placeText (place : List String) : String :=
  String.join (place.map ("/" ++ ·))

def toJson : PatchOperation → Json
  | .test place value =>
      Json.object [("op", .str "test"), ("path", .str (placeText place)), ("value", value)]
  | .add place value =>
      Json.object [("op", .str "add"), ("path", .str (placeText place)), ("value", value)]
  | .remove place => Json.object [("op", .str "remove"), ("path", .str (placeText place))]

end PatchOperation

namespace Json

def at? (value : Json) : List String → Option Json
  | [] => some value
  | key :: place =>
      match value with
      | .obj members => (Dictionary.find? members key).bind fun member => member.at? place
      | .arr items => (key.toNat?.bind fun n => items[n]?).bind fun item => item.at? place
      | _ => none

/-- The value in which the value at a place is changed.  The change sees the collection in which the
place lies and the last key or position on the way. -/
def changeAt (change : Json → String → Option Json) (value : Json) : List String → Option Json
  | [] => none
  | [last] => change value last
  | key :: place =>
      match value with
      | .obj members => do
          let member ← Dictionary.find? members key
          let changed ← member.changeAt change place
          return .obj (Dictionary.insert key changed members)
      | .arr items => do
          let n ← key.toNat?
          let item ← items[n]?
          let changed ← item.changeAt change place
          return .arr (items.set n changed)
      | _ => none

def addTo (new : Json) : Json → String → Option Json
  | .obj members, key => some (.obj (Dictionary.insert key new members))
  | .arr items, "-" => some (.arr (items ++ [new]))
  | .arr items, key =>
      key.toNat?.bind fun n =>
        if n ≤ items.length then some (.arr (items.take n ++ new :: items.drop n)) else none
  | _, _ => none

def removeFrom : Json → String → Option Json
  | .obj members, key =>
      if Dictionary.contains members key then some (.obj (Dictionary.erase key members)) else none
  | .arr items, key =>
      key.toNat?.bind fun n =>
        if n < items.length then some (.arr (items.eraseIdx n)) else none
  | _, _ => none

/-- The value after an operation, if it can be carried out.  A value that is not there is null. -/
def patch (value : Json) : PatchOperation → Option Json
  | .test place expected =>
      if (value.at? place).getD .null = expected then some value else none
  | .add place new => value.changeAt (addTo new) place
  | .remove place => value.changeAt removeFrom place

/-- The value after all operations, if each of them can be carried out. -/
def patchAll (operations : List PatchOperation) (value : Json) : Option Json :=
  operations.foldlM patch value

end Json

end LogForwarding
