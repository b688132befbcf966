import LogForwarding.Cluster.Context
import LogForwarding.Forwarder.Filter
import LogForwarding.Node.Paths
import LogForwarding.Template.Basic

/-!
The configuration of the forwarder on a node: fixed settings, one action that sends to the
collector, and one block for each filter that hands messages to this action.  The filters are tried
in the order of the document, and a message that passed one is not tried again.
-/

namespace LogForwarding.Forwarder

/-- The name of the action that sends to the collector; its statistics bear it. -/
def actionName : String := "rsyslog-relp"

def fixed (name value : String) : String := name ++ "=\"" ++ value ++ "\""

def numbered (name : String) (value : Int32) : String := fixed name (toString value.toInt)

def worded (name value : String) : String := name ++ "=" ++ literal value

def tlsParameters (tls : TlsConfig) : List String :=
  [fixed "tls" "on",
   worded "tls.caCert" Node.tlsCaCert,
   worded "tls.myCert" Node.tlsCert,
   worded "tls.myPrivKey" Node.tlsKey] ++
  (tls.authMode.toList.map (worded "tls.authMode")) ++
  (if tls.permittedPeer = [] then []
    else ["tls.permittedPeer=" ++ literalList tls.permittedPeer])

def actionParameters (config : TenantConfig) : List String :=
  [worded "target" config.target,
   numbered "port" config.port,
   fixed "Template" "SyslogForwarderTemplate"] ++
  (config.rebindInterval.toList.map (numbered "rebindInterval")) ++
  (config.timeout.toList.map (numbered "timeout")) ++
  (config.resumeRetryCount.toList.map (numbered "action.resumeRetryCount")) ++
  (config.reportSuspensionContinuation.toList.map fun report =>
    fixed "action.reportSuspensionContinuation" (if report then "on" else "off")) ++
  [fixed "queue.type" "LinkedList",
   fixed "queue.size" "100000",
   fixed "queue.filename" "rsyslog-relp-queue",
   worded "queue.spoolDirectory" Node.spoolDirectory,
   fixed "queue.maxDiskSpace" "512m",
   fixed "queue.saveOnShutdown" "on"] ++
  (config.enabledTls.toList.flatMap tlsParameters)

/-- A space between two fields of a forwarded message. -/
def blankField : String := "  constant(value=\" \")"

/-- The settings behind the spool directory, up to the first field of a forwarded message. -/
def settings : List String :=
  ["\"",
   "  maxMessageSize=\"64k\"",
   ")",
   "",
   "main_queue(",
   "  queue.type=\"LinkedList\"",
   "  queue.size=\"100000\"",
   "  queue.highWatermark=\"80000\"",
   "  queue.lowWatermark=\"20000\"",
   "  queue.discardMark=\"95000\"",
   "  queue.discardSeverity=\"8\"",
   ")",
   "",
   "template(name=\"SyslogForwarderTemplate\" type=\"list\") \x7b",
   blankField]

/-- The fields of a forwarded message behind the identity of the cluster. -/
def messageFields : List String :=
  ["\")",
   blankField,
   "  property(name=\"hostname\")",
   blankField,
   "  property(name=\"pri\")",
   blankField,
   "  property(name=\"syslogtag\")",
   blankField,
   "  property(name=\"timestamp\" dateFormat=\"rfc3339\")",
   blankField,
   "  property(name=\"procid\")",
   blankField,
   "  property(name=\"msgid\")",
   blankField,
   "  property(name=\"msg\")",
   "  constant(value=\"\\n\")",
   "\x7d",
   ""]

/-- The settings that send statistics to a program. -/
def statistics : List String :=
  [")",
   "module(load=\"omprog\")",
   "",
   "module(",
   "  load=\"impstats\"",
   "  interval=\"60\"",
   "  format=\"json\"",
   "  resetCounters=\"off\"",
   "  ruleset=\"process_stats\"",
   ")",
   "",
   "ruleset(name=\"process_stats\") \x7b",
   "  action(",
   "    name=\"to_pstats_processor\"",
   "    type=\"omprog\""]

def configurationTemplate : Template :=
  ⟨"forwarder_config",
    [.text (Template.unlines
      ["# Managed by rsyslog-relp-configurator. Local changes are overwritten.", "", "global("] ++
      "  workDirectory=\""),
     .slot "spool_dir" 4 18,
     .text (Template.unlines settings ++ "  constant(value=\""),
     .slot "project_name" 19 19,
     .text ("\")\n" ++ Template.unlines [blankField] ++ "  constant(value=\""),
     .slot "cluster_name" 21 19,
     .text ("\")\n" ++ Template.unlines [blankField] ++ "  constant(value=\""),
     .slot "cluster_uid" 23 19,
     .text (Template.unlines messageFields ++ "module(load=\"omrelp\""),
     .conditional "tls_lib" [.text " tls.tlslib=\"", .slot "tls_lib" 41 49, .text "\""],
     .text (Template.unlines statistics ++ "    binary=\""),
     .slot "pstats_script" 56 13,
     .text ("\"\n" ++ Template.unlines
       ["  )", "\x7d", "", "ruleset(name=\"relp_action_ruleset\") \x7b", "  action("] ++
       "    name=\""),
     .slot "action_name" 62 11,
     .text ("\"\n" ++ Template.unlines ["    type=\"omrelp\""]),
     .repeated "action_params" [.text "    ", .item, .text "\n"],
     .text (Template.unlines ["  )", "\x7d", ""]),
     .repeated "filters"
       [.text "if ", .item, .text (" then \x7b\n" ++
         Template.unlines ["  call relp_action_ruleset", "  stop", "\x7d"])]]⟩

def configurationData (config : TenantConfig) (ctx : ClusterContext) : Json :=
  Json.object
    [("spool_dir", .str Node.spoolDirectory),
     ("pstats_script", .str Node.statsProgramPath),
     ("action_name", .str actionName),
     ("project_name", .str (literalBody ctx.projectName)),
     ("cluster_name", .str (literalBody ctx.clusterName)),
     ("cluster_uid", .str (literalBody ctx.clusterUid)),
     ("tls_lib", Json.ofOption .str (config.enabledTls.bind TlsConfig.tlsLib)),
     ("action_params", Json.texts (actionParameters config)),
     ("filters", Json.texts (config.loggingRules.map filterExpression))]

def configuration (config : TenantConfig) (ctx : ClusterContext) : Except TemplateError String :=
  configurationTemplate.fill (configurationData config ctx)

end LogForwarding.Forwarder
