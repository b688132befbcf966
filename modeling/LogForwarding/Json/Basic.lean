import LogForwarding.Number.Binary64
import LogForwarding.Dictionary

/-!
JSON values.  The members of an object are kept as a dictionary, so two objects that differ only in
the order of their members are the same value.
-/

namespace LogForwarding

/-- A JSON value.  Integers and fractional numbers are told apart. -/
inductive Json where
  | null
  | bool (value : Bool)
  | int (value : Int)
  | float (value : Binary64)
  | str (value : String)
  | arr (items : List Json)
  | obj (members : List (String × Json))
deriving Inhabited, Repr

namespace Json

mutual

def decEq : (a b : Json) → Decidable (a = b)
  | .null, .null => isTrue rfl
  | .bool a, .bool b =>
      if h : a = b then isTrue (h ▸ rfl) else isFalse fun e => h (by injection e)
  | .int a, .int b =>
      if h : a = b then isTrue (h ▸ rfl) else isFalse fun e => h (by injection e)
  | .float a, .float b =>
      if h : a = b then isTrue (h ▸ rfl) else isFalse fun e => h (by injection e)
  | .str a, .str b =>
      if h : a = b then isTrue (h ▸ rfl) else isFalse fun e => h (by injection e)
  | .arr a, .arr b =>
      match decEqItems a b with
      | isTrue h => isTrue (h ▸ rfl)
      | isFalse h => isFalse fun e => h (by injection e)
  | .obj a, .obj b =>
      match decEqMembers a b with
      | isTrue h => isTrue (h ▸ rfl)
      | isFalse h => isFalse fun e => h (by injection e)
  | .null, .bool _ | .null, .int _ | .null, .float _ | .null, .str _ | .null, .arr _
  | .null, .obj _ => isFalse nofun
  | .bool _, .null | .bool _, .int _ | .bool _, .float _ | .bool _, .str _ | .bool _, .arr _
  | .bool _, .obj _ => isFalse nofun
  | .int _, .null | .int _, .bool _ | .int _, .float _ | .int _, .str _ | .int _, .arr _
  | .int _, .obj _ => isFalse nofun
  | .float _, .null | .float _, .bool _ | .float _, .int _ | .float _, .str _ | .float _, .arr _
  | .float _, .obj _ => isFalse nofun
  | .str _, .null | .str _, .bool _ | .str _, .int _ | .str _, .float _ | .str _, .arr _
  | .str _, .obj _ => isFalse nofun
  | .arr _, .null | .arr _, .bool _ | .arr _, .int _ | .arr _, .float _ | .arr _, .str _
  | .arr _, .obj _ => isFalse nofun
  | .obj _, .null | .obj _, .bool _ | .obj _, .int _ | .obj _, .float _ | .obj _, .str _
  | .obj _, .arr _ => isFalse nofun

def decEqItems : (a b : List Json) → Decidable (a = b)
  | [], [] => isTrue rfl
  | [], _ :: _ => isFalse nofun
  | _ :: _, [] => isFalse nofun
  | x :: xs, y :: ys =>
      match decEq x y, decEqItems xs ys with
      | isTrue h, isTrue hs => isTrue (h ▸ hs ▸ rfl)
      | isFalse h, _ => isFalse fun e => h (by injection e)
      | _, isFalse hs => isFalse fun e => hs (by injection e)

def decEqMembers : (a b : List (String × Json)) → Decidable (a = b)
  | [], [] => isTrue rfl
  | [], _ :: _ => isFalse nofun
  | _ :: _, [] => isFalse nofun
  | (k, x) :: xs, (l, y) :: ys =>
      if hk : k = l then
        match decEq x y, decEqMembers xs ys with
        | isTrue h, isTrue hs => isTrue (hk ▸ h ▸ hs ▸ rfl)
        | isFalse h, _ => isFalse fun e => h (by injection e with e _; injection e)
        | _, isFalse hs => isFalse fun e => hs (by injection e)
      else isFalse fun e => hk (by injection e with e _; injection e)

end

instance : DecidableEq Json := decEq

def object (members : List (String × Json)) : Json :=
  .obj (Dictionary.ofList members)

def texts (items : List String) : Json :=
  .arr (items.map .str)

def ofOption {α : Type} (toJson : α → Json) (value : Option α) : Json :=
  (value.map toJson).getD .null

def get? (value : Json) (key : String) : Option Json :=
  match value with
  | .obj members => Dictionary.find? members key
  | _ => none

def asText? (value : Json) : Option String :=
  match value with
  | .str text => some text
  | _ => none

/-- The object with one member set; other values are left alone. -/
def set (value : Json) (key : String) (member : Json) : Json :=
  match value with
  | .obj members => .obj (Dictionary.insert key member members)
  | other => other

end Json

end LogForwarding
