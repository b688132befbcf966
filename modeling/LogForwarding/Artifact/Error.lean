import LogForwarding.Template.Error
import LogForwarding.Tenant.Document

/-!
Why no artifacts can be made from a tenant document.
-/

namespace LogForwarding

/-- Why no artifacts can be made. -/
inductive SynthesisError where
  | relativePath (path : String)
  | duplicatePath (path : String)
  | duplicateUnit (name : String)
  | template (error : TemplateError)
  /-- A field names an object that the cluster does not refer to. -/
  | unresolvedReference (field reference : String)
  | noAuditRules (configMap : String)
  | badAuditRules (error : DocumentError)
deriving DecidableEq, Inhabited

def SynthesisError.message : SynthesisError → String
  | .relativePath path => "artifact path '" ++ path ++ "' is not absolute"
  | .duplicatePath path => "artifact path '" ++ path ++ "' is emitted twice"
  | .duplicateUnit name => "unit '" ++ name ++ "' is emitted twice"
  | .template error => "template rendering failed: " ++ error.message
  | .unresolvedReference field reference =>
      field ++ " references '" ++ reference ++ "' which is not part of the cluster resources"
  | .noAuditRules configMap =>
      "audit rules could not be read: configmap " ++ configMap ++ " is empty"
  | .badAuditRules error => "audit rules could not be read: " ++ error.message

end LogForwarding
