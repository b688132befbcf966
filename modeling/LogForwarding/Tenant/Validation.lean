import LogForwarding.Cluster.Context
import LogForwarding.Pattern.Ere
import LogForwarding.Tenant.Document
import LogForwarding.Tenant.FieldError

/-!
Semantic validation of a tenant document.  Each check yields the faults of one field, and the faults
of a document are those of its fields in document order.
-/

namespace LogForwarding

/-- The keys of a Secret with key material: these and no others. -/
def tlsSecretKeys : List String := ["ca", "crt", "key"]

def maxPort : Int := 65535

def maxSeverity : Int := 7

/-- A text in double quotes, as it is. -/
def inQuotes (text : String) : String := "\"" ++ text ++ "\""

def firstControl (text : String) : Option Char :=
  text.toList.find? Text.isControl

/-- Texts of the forwarder configuration may not hold control characters. -/
def checkPrintable (field text : String) : FieldErrors :=
  match firstControl text with
  | some c =>
      [.invalid field ("must not contain control characters, found " ++ Text.quotedChar c)]
  | none => []

def checkTarget (target : String) : FieldErrors :=
  if target = "" then [.required "target" "target must not be empty"]
  else checkPrintable "target" target

def checkPort (port : Int32) : FieldErrors :=
  if port.toInt < 0 then [.invalid "port" "port cannot be less than 0"]
  else if maxPort < port.toInt then
    [.invalid "port" ("port cannot be greater than " ++ toString maxPort)]
  else []

/-- A severity must be one of the eight. -/
def checkSeverity (path : String) (severity : Option Int32) : FieldErrors :=
  match severity with
  | none => []
  | some n =>
      if 0 ≤ n.toInt ∧ n.toInt ≤ maxSeverity then []
      else
        [.invalid (path ++ ".severity")
          ("severity must be between 0 and " ++ toString maxSeverity ++ ", got " ++
            toString n.toInt)]

/-- The checks of the items of a list, each with its place. -/
def checkEach {α : Type} (path : String) (check : String → α → FieldErrors) (items : List α) :
    FieldErrors :=
  (items.zipIdx.map fun (item, index) => check (path ++ "[" ++ toString index ++ "]") item).flatten

/-- A pattern must be a printable POSIX extended regular expression. -/
def checkPattern (field : String) (pattern : Option String) : FieldErrors :=
  match pattern with
  | none => []
  | some pattern =>
      match firstControl pattern with
      | some _ => checkPrintable field pattern
      | none =>
          match Ere.compile pattern with
          | .ok _ => []
          | .error e =>
              [.invalid field
                (inQuotes pattern ++ " is not a valid POSIX extended regular expression: " ++
                  e.message)]

def checkContent (path : String) (content : Option MessageContent) : FieldErrors :=
  match content with
  | none => []
  | some content =>
      checkPattern (path ++ ".messageContent.regex") content.regex ++
        checkPattern (path ++ ".messageContent.exclude") content.exclude

/-- A filter must constrain something; nothing else is told of one that does not. -/
def checkRule (path : String) (rule : LoggingRule) : FieldErrors :=
  if rule.isEmpty then
    [.required path "at least one of programNames, severity or messageContent must be set"]
  else
    checkSeverity path rule.severity ++
      checkEach (path ++ ".programNames") checkPrintable rule.programNames ++
      checkContent path rule.messageContent

def checkRules (rules : List LoggingRule) : FieldErrors :=
  if rules = [] then [.required "loggingRules" "at least one logging rule is required"]
  else checkEach "loggingRules" checkRule rules

def checkPeer (field peer : String) : FieldErrors :=
  if peer = "" then [.required field "permitted peer must not be empty"]
  else checkPrintable field peer

/-- A text that must be one of the allowed ones when it is set. -/
def checkAllowed (field : String) (allowed : List String) (value : Option String) : FieldErrors :=
  match value with
  | none => []
  | some text => if text ∈ allowed then [] else [.notSupported field text allowed]

/-- The field that names the Secret with key material. -/
def tlsReferenceField : String := "tls.secretReferenceName"

/-- The field that names the ConfigMap with audit rules. -/
def auditReferenceField : String := "auditConfig.configMapReferenceName"

/-- The target of a reference, which must be of the wanted kind. -/
def checkReference (field kind reference : String) (ctx : ClusterContext) :
    Except FieldError NamedReference :=
  match ctx.reference? reference with
  | none =>
      .error (.notFound field ("cluster has no resource reference named " ++ inQuotes reference))
  | some named =>
      if named.target.kind = kind then .ok named
      else
        .error (.invalid field
          ("resource reference " ++ inQuotes reference ++ " points at a " ++ named.target.kind ++
            ", expected a " ++ kind))

/-- What is wrong with the keys of a Secret with key material. -/
def keyProblems (keys : List String) : List String :=
  let missing := tlsSecretKeys.filter fun key => key ∉ keys
  let extra := keys.filter fun key => key ∉ tlsSecretKeys
  (if missing = [] then [] else ["missing keys [" ++ ", ".intercalate missing ++ "]"]) ++
    (if extra = [] then [] else ["unexpected keys [" ++ ", ".intercalate extra ++ "]"])

/-- The reference must lead to an immutable Secret with exactly the keys of key material. -/
def tlsSecretFault (reference : String) (ctx : ClusterContext) : Option FieldError :=
  let field := tlsReferenceField
  match checkReference field "Secret" reference ctx with
  | .error e => some e
  | .ok named =>
      match ctx.secret? reference with
      | none =>
          some (.notFound field ("secret " ++ inQuotes named.target.name ++ " does not exist"))
      | some secret =>
          if ¬ secret.immutable then
            some (.forbidden field ("secret " ++ inQuotes secret.name ++ " must be immutable"))
          else
            match keyProblems secret.keys with
            | [] => none
            | problems =>
                some (.invalid field
                  ("secret " ++ inQuotes secret.name ++
                    " must contain exactly the keys [ca, crt, key]: " ++
                    "; ".intercalate problems))

def checkTlsReference (tls : TlsConfig) (ctx : ClusterContext) : FieldErrors :=
  if ¬ tls.enabled then []
  else
    match tls.secretReferenceName with
    | none | some "" =>
        [.required tlsReferenceField "secret reference is required when TLS is enabled"]
    | some reference => ((tlsSecretFault reference ctx).map FieldError.onReference).toList

def checkTls (tls : TlsConfig) (ctx : ClusterContext) : FieldErrors :=
  checkAllowed "tls.authMode" AuthMode.allowed tls.authMode ++
    checkAllowed "tls.tlsLib" TlsLib.allowed tls.tlsLib ++
    checkEach "tls.permittedPeer" checkPeer tls.permittedPeer ++
    checkTlsReference tls ctx

/-- The only text of a ConfigMap must be audit rules that are not blank. -/
def auditRulesFault (configMap : ConfigMapSnapshot) : Option FieldError :=
  let field := auditReferenceField
  let name := inQuotes configMap.name
  match configMap.data with
  | [] => some (.invalid field ("configmap " ++ name ++ " must carry its rules as text data"))
  | (key, raw) :: _ =>
      let place := "key " ++ inQuotes key ++ " of configmap " ++ name
      match AuditRules.ofBytes (Bytes.ofText raw) with
      | .error e => some (.invalid field (place ++ ": " ++ e.message))
      | .ok rules =>
          if Text.isBlankText rules.auditRules then
            some (.required field (place ++ " has empty auditRules"))
          else none

/-- The reference must lead to an immutable ConfigMap whose only key holds audit rules. -/
def auditConfigMapFault (reference : String) (ctx : ClusterContext) : Option FieldError :=
  let field := auditReferenceField
  match checkReference field "ConfigMap" reference ctx with
  | .error e => some e
  | .ok named =>
      match ctx.configMap? reference with
      | none =>
          some (.notFound field ("configmap " ++ inQuotes named.target.name ++ " does not exist"))
      | some configMap =>
          let name := inQuotes configMap.name
          if ¬ configMap.immutable then
            some (.forbidden field ("configmap " ++ name ++ " must be immutable"))
          else if configMap.keyCount = 0 then
            some (.required field ("configmap " ++ name ++ " has no data"))
          else if configMap.keyCount ≠ 1 then
            some (.invalid field
              ("configmap " ++ name ++ " must contain exactly one key, found " ++
                toString configMap.keyCount))
          else auditRulesFault configMap

def checkAudit (audit : AuditConfig) (ctx : ClusterContext) : FieldErrors :=
  if ¬ audit.enabled then []
  else
    match audit.configMapReferenceName with
    | none => []
    | some "" => [.required auditReferenceField "reference name must not be empty when set"]
    | some reference => ((auditConfigMapFault reference ctx).map FieldError.onReference).toList

/-- The faults of a document in document order. -/
def TenantConfig.validate (config : TenantConfig) (ctx : ClusterContext) : FieldErrors :=
  checkTarget config.target ++ checkPort config.port ++ checkRules config.loggingRules ++
    (config.tls.toList.flatMap fun tls => checkTls tls ctx) ++
    (config.auditConfig.toList.flatMap fun audit => checkAudit audit ctx)

end LogForwarding
