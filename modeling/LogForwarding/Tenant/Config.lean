/-!
The tenant document: where log messages are forwarded to, which messages are forwarded, how the
connection is secured, and whether audit rules are installed on the nodes.
-/

namespace LogForwarding

/-- Patterns on the text of a message. -/
structure MessageContent where
  /-- The message must match this pattern. -/
  regex : Option String
  /-- The message must not match this pattern. -/
  exclude : Option String
deriving DecidableEq, Repr, Inhabited

/-- One filter: a message passes when it meets every constraint that is set. -/
structure LoggingRule where
  /-- The names of the programs; any program if there are none. -/
  programNames : List String
  /-- Messages of this severity, 0 to 7, or a more severe one. -/
  severity : Option Int32
  messageContent : Option MessageContent
deriving DecidableEq, Repr, Inhabited

def LoggingRule.isEmpty (rule : LoggingRule) : Bool :=
  rule.programNames = [] ∧ rule.severity = none ∧
    (rule.messageContent.all fun content => content.regex = none ∧ content.exclude = none)

/-- How the connection to the collector is secured. -/
structure TlsConfig where
  enabled : Bool
  /-- The cluster's reference to the secret with the key material. -/
  secretReferenceName : Option String
  permittedPeer : List String
  authMode : Option String
  /-- Unset leaves the choice to the forwarder. -/
  tlsLib : Option String
deriving DecidableEq, Repr, Inhabited

/-- Whether audit rules are installed, and which. -/
structure AuditConfig where
  enabled : Bool
  /-- The cluster's reference to a ConfigMap with audit rules; unset means the baseline rules. -/
  configMapReferenceName : Option String
deriving DecidableEq, Repr, Inhabited

/-- A tenant document without its type header. -/
structure TenantConfig where
  /-- Host name or address of the collector. -/
  target : String
  port : Int32
  /-- The filters; a message that passes one of them is forwarded. -/
  loggingRules : List LoggingRule
  tls : Option TlsConfig
  rebindInterval : Option Int32
  timeout : Option Int32
  resumeRetryCount : Option Int32
  reportSuspensionContinuation : Option Bool
  auditConfig : Option AuditConfig
deriving DecidableEq, Repr, Inhabited

/-- Audit rules as a document of their own. -/
structure AuditRules where
  apiVersion : String
  kind : String
  auditRules : String
deriving DecidableEq, Repr, Inhabited

namespace TenantConfig

def empty : TenantConfig :=
  ⟨"", 0, [], none, none, none, none, none, none⟩

/-- Audit rules are installed unless they are switched off. -/
def auditEnabled (config : TenantConfig) : Bool :=
  config.auditConfig.all AuditConfig.enabled

/-- The security settings, if they are switched on. -/
def enabledTls (config : TenantConfig) : Option TlsConfig :=
  config.tls.filter TlsConfig.enabled

/-- The audit settings, if they are switched on. -/
def enabledAudit (config : TenantConfig) : Option AuditConfig :=
  config.auditConfig.filter AuditConfig.enabled

/-- Makes explicit that audit rules are installed when nothing is said about them. -/
def withDefaults (config : TenantConfig) : TenantConfig :=
  match config.auditConfig with
  | some _ => config
  | none =>
      ⟨config.target, config.port, config.loggingRules, config.tls, config.rebindInterval,
        config.timeout, config.resumeRetryCount, config.reportSuspensionContinuation,
        some ⟨true, none⟩⟩

end TenantConfig

/-- How the peer of a secured connection is authenticated. -/
inductive AuthMode where
  | name
  | fingerprint
deriving DecidableEq, Repr, Inhabited

def AuthMode.allowed : List String := ["name", "fingerprint"]

def AuthMode.ofText? (text : String) : Option AuthMode :=
  if text = "name" then some .name else if text = "fingerprint" then some .fingerprint else none

def AuthMode.text : AuthMode → String
  | .name => "name"
  | .fingerprint => "fingerprint"

/-- The library that secures the connection. -/
inductive TlsLib where
  | openssl
  | gnutls
deriving DecidableEq, Repr, Inhabited

def TlsLib.allowed : List String := ["openssl", "gnutls"]

def TlsLib.ofText? (text : String) : Option TlsLib :=
  if text = "openssl" then some .openssl else if text = "gnutls" then some .gnutls else none

def TlsLib.text : TlsLib → String
  | .openssl => "openssl"
  | .gnutls => "gnutls"

/-- Defaulting never changes whether audit rules are installed. -/
theorem TenantConfig.auditEnabled_withDefaults (config : TenantConfig) :
    config.withDefaults.auditEnabled = config.auditEnabled := by
  unfold withDefaults auditEnabled
  split <;> simp_all

end LogForwarding
