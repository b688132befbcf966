/-!
Why a template cannot be filled in.
-/

namespace LogForwarding

/-- Why a template cannot be filled in. -/
inductive TemplateError where
  | unknownTemplate (name : String)
  /-- A name was looked up in a list.  The place is that of the name in the template. -/
  | listIndexed (template name : String) (line column : Nat)
deriving DecidableEq, Repr, Inhabited

def TemplateError.message : TemplateError → String
  | .unknownTemplate name => "unknown template '" ++ name ++ "'"
  | .listIndexed template name line column =>
      "failed to render " ++ template ++ ": Error rendering \"" ++ template ++ "\" line " ++
        toString line ++ ", col " ++ toString column ++
        ": Cannot access array/vector with string index, " ++ name

end LogForwarding
