import LogForwarding.Json.Basic
import LogForwarding.Template.Error

/-!
Text templates: fixed text, slots for the members of an object, and parts that are written only if a
member holds something, or once for each item of a member.
-/

namespace LogForwarding

/-- A part of a template. -/
inductive Segment where
  | text (text : String)
  /-- A member of the data, with the place of the slot in the template. -/
  | slot (name : String) (line column : Nat)
  /-- The current item of a repetition. -/
  | item
  /-- Written if the member holds something. -/
  | conditional (name : String) (body : List Segment)
  /-- Written for each item of a list, or for each member of an object in key order. -/
  | repeated (name : String) (body : List Segment)
deriving Inhabited

/-- A named template. -/
structure Template where
  name : String
  segments : List Segment
deriving Inhabited

namespace Template

def unlines (lines : List String) : String :=
  String.join (lines.map fun line => line ++ "\n")

mutual

/-- How a value is written: texts as they are, null as nothing, lists in brackets. -/
def written : Json → String
  | .null => ""
  | .bool value => if value then "true" else "false"
  | .int value => toString value
  | .float value => value.toText
  | .str value => value
  | .arr items => "[" ++ ", ".intercalate (writtenItems items) ++ "]"
  | .obj _ => "[object]"

/-- How the items of a list are written. -/
def writtenItems : List Json → List String
  | [] => []
  | item :: rest => written item :: writtenItems rest

end

/-- Whether a value counts as something: null, false, zero and what is empty do not. -/
def holds : Json → Bool
  | .null => false
  | .bool value => value
  | .int value => value ≠ 0
  | .float value => value.isNormal
  | .str value => value ≠ ""
  | .arr items => items ≠ []
  | .obj members => members ≠ []

/-- A member of the data, null when there is none. -/
def memberOf (data : Json) (name : String) : Json :=
  (data.get? name).getD .null

def repetitionItems : Json → List Json
  | .arr items => items
  | .obj members => members.map (·.2)
  | _ => []

mutual

def fillSegment (template : String) (data item : Json) : Segment → Except TemplateError String
  | .text text => .ok text
  | .slot name line column =>
      match data with
      | .arr _ => .error (.listIndexed template name line column)
      | _ => .ok (written (memberOf data name))
  | .item => .ok (written item)
  | .conditional name body =>
      if holds (memberOf data name) then fillSegments template data item body else .ok ""
  | .repeated name body => do
      let texts ← (repetitionItems (memberOf data name)).mapM fun item =>
        fillSegments template data item body
      return String.join texts

def fillSegments (template : String) (data item : Json) :
    List Segment → Except TemplateError String
  | [] => .ok ""
  | segment :: rest => do
      let first ← fillSegment template data item segment
      let others ← fillSegments template data item rest
      return first ++ others

end

/-- The text of a template for some data. -/
def fill (template : Template) (data : Json) : Except TemplateError String :=
  fillSegments template.name data .null template.segments

end Template

end LogForwarding
