import LogForwarding.Yaml.Node
import LogForwarding.Yaml.Scalar

/-!
YAML documents as JSON values.  The key of an entry is the text of a scalar; of two entries with one
key the later counts.
-/

namespace LogForwarding.Yaml

mutual

def Node.toJson? : Node → Option Json
  | .scalar text style tag => scalarValue text style tag
  | .sequence items tag =>
      if tag.any isLocalTag then none else (itemsToJson? items).map .arr
  | .mapping entries tag =>
      if tag.any isLocalTag then none else (entriesToJson? entries).map Json.object

def itemsToJson? : List Node → Option (List Json)
  | [] => some []
  | item :: rest => do
      let value ← item.toJson?
      let values ← itemsToJson? rest
      return value :: values

/-- The members of an object, in the order of the entries. -/
def entriesToJson? : List (Node × Node) → Option (List (String × Json))
  | [] => some []
  | (key, value) :: rest =>
      match key with
      | .scalar text _ _ => do
          let member ← value.toJson?
          let members ← entriesToJson? rest
          return (text, member) :: members
      | _ => none

end

/-- The value of the only document of a stream; a stream without a document is null. -/
def read? (bytes : Bytes) : Option Json :=
  match Node.ofBytes? bytes with
  | none => none
  | some none => some .null
  | some (some root) => root.toJson?

end LogForwarding.Yaml
