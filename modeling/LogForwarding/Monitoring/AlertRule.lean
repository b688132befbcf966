import LogForwarding.Forwarder.Configuration

/-!
The alerts that watch the forwarding of one tenant.
-/

namespace LogForwarding

/-- How grave an alert is. -/
inductive AlertSeverity where
  | warning
  | critical
deriving DecidableEq, Repr, Inhabited

def AlertSeverity.name : AlertSeverity → String
  | .warning => "warning"
  | .critical => "critical"

/-- An alert. -/
structure AlertRule where
  name : String
  /-- What has to hold. -/
  expr : String
  /-- For how long it has to hold. -/
  duration : String
  severity : AlertSeverity
  summary : String
  description : String
deriving DecidableEq, Repr, Inhabited

namespace AlertRule

def decode : Decoder AlertRule :=
  Fields.decoder
    (AlertRule.mk <$> Fields.required "name" Decoder.text
      <*> Fields.required "expr" Decoder.text
      <*> Fields.required "duration" Decoder.text
      <*> Fields.required "severity"
        (Decoder.variant ([.warning, .critical].map fun s => (s.name, s)))
      <*> Fields.required "summary" Decoder.text
      <*> Fields.required "description" Decoder.text)
    "AlertRule" false

def toJson (rule : AlertRule) : Json :=
  Json.object
    [("name", .str rule.name), ("expr", .str rule.expr), ("duration", .str rule.duration),
     ("severity", .str rule.severity.name), ("summary", .str rule.summary),
     ("description", .str rule.description)]

/-- The entry of an alert in a group of rules.  It is shown to the owner of the cluster. -/
def toRule (rule : AlertRule) : Json :=
  Json.object
    [("alert", .str rule.name), ("expr", .str rule.expr), ("for", .str rule.duration),
     ("labels", Json.object
       [("severity", .str rule.severity.name), ("type", .str "shoot"),
        ("visibility", .str "owner")]),
     ("annotations", Json.object
       [("summary", .str rule.summary), ("description", .str rule.description)])]

end AlertRule

namespace Monitoring

/-- A series of counts for the action that forwards. -/
def actionSeries (name : String) : String :=
  "rsyslog_pstat_" ++ name ++ "\x7borigin=\"core.action\",name=\"" ++ Forwarder.actionName
    ++ "\"\x7d"

/-- The rate of a series over five minutes. -/
def rate (series : String) : String :=
  "rate(" ++ series ++ "[5m])"

/-- More than two messages of a hundred are not forwarded. -/
def failuresAlert : AlertRule where
  name := "RsyslogTooManyRelpActionFailures"
  expr := "sum(" ++ rate (actionSeries "failed") ++ ") / sum(" ++ rate (actionSeries "processed")
    ++ ") > 0.02"
  duration := "15m"
  severity := .warning
  summary := "Rsyslog RELP action fails to forward messages"
  description := "More than 2% of the messages handled by the rsyslog RELP action failed during the last 15 minutes."

def silenceAlert : AlertRule where
  name := "RsyslogRelpActionProcessingRateIsZero"
  expr := rate (actionSeries "processed") ++ " == 0"
  duration := "15m"
  severity := .warning
  summary := "Rsyslog RELP action processes no messages"
  description := "The rsyslog RELP action on node \x7b\x7b$labels.node\x7d\x7d has not processed any messages for 15 minutes."

/-- A node has not loaded its audit rules. -/
def auditAlert : AlertRule where
  name := "RsyslogRelpAuditRulesNotLoadedSuccessfully"
  expr := "absent(rsyslog_augenrules_load_success == 1)"
  duration := "15m"
  severity := .warning
  summary := "Audit rules were not loaded on a node"
  description := "The audit rules configured for rsyslog RELP forwarding have not been loaded successfully for 15 minutes."

/-- The alerts of a tenant; audit rules are only watched when there are any. -/
def alertRules (audit : Bool) : List AlertRule :=
  [failuresAlert, silenceAlert] ++ if audit then [auditAlert] else []

end Monitoring

end LogForwarding
