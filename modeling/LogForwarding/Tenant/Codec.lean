import LogForwarding.Schema.Decoder
import LogForwarding.Tenant.Config

/-!
Tenant documents as JSON.  Decoding refuses unknown fields; encoding leaves out empty lists and
absent options.
-/

namespace LogForwarding

open Fields

private def number (value : Int32) : Json := .int value.toInt

/-- A list that is left out when it is empty. -/
private def nonEmpty (items : List Json) : Option Json :=
  if items = [] then none else some (.arr items)

namespace MessageContent

/-- The fields of the patterns on a message. -/
def fields : Fields MessageContent :=
  MessageContent.mk <$> optional "regex" Decoder.text <*> optional "exclude" Decoder.text

def decode : Decoder MessageContent :=
  fields.decoder "MessageContent" true

def toJson (content : MessageContent) : Json :=
  Json.ofFields [("regex", content.regex.map .str), ("exclude", content.exclude.map .str)]

end MessageContent

namespace LoggingRule

def fields : Fields LoggingRule :=
  LoggingRule.mk <$> withDefault "programNames" (Decoder.list Decoder.text) []
    <*> optional "severity" Decoder.int32
    <*> optional "messageContent" MessageContent.decode

def decode : Decoder LoggingRule :=
  fields.decoder "LoggingRule" true

def toJson (rule : LoggingRule) : Json :=
  Json.ofFields
    [("programNames", nonEmpty (rule.programNames.map .str)),
     ("severity", rule.severity.map number),
     ("messageContent", rule.messageContent.map MessageContent.toJson)]

end LoggingRule

namespace TlsConfig

def fields : Fields TlsConfig :=
  TlsConfig.mk <$> withDefault "enabled" Decoder.boolean false
    <*> optional "secretReferenceName" Decoder.text
    <*> withDefault "permittedPeer" (Decoder.list Decoder.text) []
    <*> optional "authMode" Decoder.text
    <*> optional "tlsLib" Decoder.text

def decode : Decoder TlsConfig :=
  fields.decoder "TlsConfig" true

def toJson (tls : TlsConfig) : Json :=
  Json.ofFields
    [("enabled", some (.bool tls.enabled)),
     ("secretReferenceName", tls.secretReferenceName.map .str),
     ("permittedPeer", nonEmpty (tls.permittedPeer.map .str)),
     ("authMode", tls.authMode.map .str),
     ("tlsLib", tls.tlsLib.map .str)]

end TlsConfig

namespace AuditConfig

def fields : Fields AuditConfig :=
  AuditConfig.mk <$> withDefault "enabled" Decoder.boolean true
    <*> optional "configMapReferenceName" Decoder.text

def decode : Decoder AuditConfig :=
  fields.decoder "AuditConfig" true

def toJson (audit : AuditConfig) : Json :=
  Json.ofFields
    [("enabled", some (.bool audit.enabled)),
     ("configMapReferenceName", audit.configMapReferenceName.map .str)]

end AuditConfig

namespace TenantConfig

def fields : Fields TenantConfig :=
  TenantConfig.mk <$> withDefault "target" Decoder.text ""
    <*> withDefault "port" Decoder.int32 0
    <*> withDefault "loggingRules" (Decoder.list LoggingRule.decode) []
    <*> optional "tls" TlsConfig.decode
    <*> optional "rebindInterval" Decoder.int32
    <*> optional "timeout" Decoder.int32
    <*> optional "resumeRetryCount" Decoder.int32
    <*> optional "reportSuspensionContinuation" Decoder.boolean
    <*> optional "auditConfig" AuditConfig.decode

def decode : Decoder TenantConfig :=
  fields.decoder "RsyslogRelpConfig" true

def members (config : TenantConfig) : List (String × Option Json) :=
  [("target", some (.str config.target)),
   ("port", some (number config.port)),
   ("loggingRules", nonEmpty (config.loggingRules.map LoggingRule.toJson)),
   ("tls", config.tls.map TlsConfig.toJson),
   ("rebindInterval", config.rebindInterval.map number),
   ("timeout", config.timeout.map number),
   ("resumeRetryCount", config.resumeRetryCount.map number),
   ("reportSuspensionContinuation", config.reportSuspensionContinuation.map .bool),
   ("auditConfig", config.auditConfig.map AuditConfig.toJson)]

def toJson (config : TenantConfig) : Json :=
  Json.ofFields config.members

end TenantConfig

namespace AuditRules

def fields : Fields AuditRules :=
  AuditRules.mk <$> required "apiVersion" Decoder.text
    <*> required "kind" Decoder.text
    <*> withDefault "auditRules" Decoder.text ""

def decode : Decoder AuditRules :=
  fields.decoder "AuditRules" false

def toJson (rules : AuditRules) : Json :=
  Json.object
    [("apiVersion", .str rules.apiVersion), ("kind", .str rules.kind),
     ("auditRules", .str rules.auditRules)]

end AuditRules

end LogForwarding
