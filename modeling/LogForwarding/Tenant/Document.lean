import LogForwarding.Tenant.Codec
import LogForwarding.Yaml.Value

/-!
Versioned documents.  The type header is checked before the body is decoded, the version before the
kind, so a document of another version is told apart from a faulty one.
-/

namespace LogForwarding

/-- The version of every document that is understood. -/
def documentVersion : String := "rsyslog-relp.extensions.relp.platform/v1alpha1"

/-- The kinds of documents. -/
inductive DocumentKind where
  | config
  | auditRules
deriving DecidableEq, Repr, Inhabited

def DocumentKind.text : DocumentKind → String
  | .config => "RsyslogRelpConfig"
  | .auditRules => "AuditRules"

/-- Why a document is refused. -/
inductive DocumentError where
  /-- The bytes hold no document. -/
  | malformed
  | notAnObject
  /-- A field of the type header is absent, empty or no text. -/
  | missingTypeField (name : String)
  | unsupportedVersion (found : String)
  | unknownKind (found : String) (expected : DocumentKind)
  | invalidBody (kind : DocumentKind) (mismatch : Mismatch)
deriving DecidableEq, Inhabited

namespace DocumentError

/-- What the YAML reader has to say about a malformed document. -/
def yamlText : String := "<yaml error>"

def message : DocumentError → String
  | .malformed => "document is not valid YAML or JSON: " ++ yamlText
  | .notAnObject => "document must be an object"
  | .missingTypeField name => "document is missing '" ++ name ++ "'"
  | .unsupportedVersion found =>
      "unsupported apiVersion '" ++ found ++ "', expected '" ++ documentVersion ++ "'"
  | .unknownKind found expected =>
      "unknown kind '" ++ found ++ "', expected '" ++ expected.text ++ "'"
  | .invalidBody kind mismatch =>
      "invalid " ++ kind.text ++ " document: " ++ mismatch.message

end DocumentError

/-- The text of a field of the type header. -/
def headerField (members : Dictionary Json) (name : String) :
    Except DocumentError String :=
  match Dictionary.find? members name with
  | some (.str text) => if text = "" then .error (.missingTypeField name) else .ok text
  | _ => .error (.missingTypeField name)

/-- The fields of a document behind its type header, if the header is that of the given kind. -/
def checkedBody (kind : DocumentKind) : Json → Except DocumentError (Dictionary Json)
  | .obj members => do
      let version ← headerField members "apiVersion"
      let found ← headerField members "kind"
      if version ≠ documentVersion then throw (.unsupportedVersion version)
      if found ≠ kind.text then throw (.unknownKind found kind)
      return Dictionary.erase "kind" (Dictionary.erase "apiVersion" members)
  | _ => .error .notAnObject

def TenantConfig.ofDocument (document : Json) : Except DocumentError TenantConfig := do
  let body ← checkedBody .config document
  (TenantConfig.decode (.obj body)).mapError (.invalidBody .config)

def AuditRules.ofDocument (document : Json) : Except DocumentError AuditRules := do
  let body ← checkedBody .auditRules document
  let headed := Dictionary.insert "kind" (.str DocumentKind.auditRules.text)
    (Dictionary.insert "apiVersion" (.str documentVersion) body)
  (AuditRules.decode (.obj headed)).mapError (.invalidBody .auditRules)

/-- The value that the bytes of a document spell. -/
def readDocument (bytes : Bytes) : Except DocumentError Json :=
  match Yaml.read? bytes with
  | some document => .ok document
  | none => .error .malformed

/-- Reads a tenant document from YAML or JSON text. -/
def TenantConfig.ofBytes (bytes : Bytes) : Except DocumentError TenantConfig := do
  TenantConfig.ofDocument (← readDocument bytes)

/-- Reads audit rules from YAML or JSON text. -/
def AuditRules.ofBytes (bytes : Bytes) : Except DocumentError AuditRules := do
  AuditRules.ofDocument (← readDocument bytes)

end LogForwarding
