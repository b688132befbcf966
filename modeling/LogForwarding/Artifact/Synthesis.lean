import LogForwarding.Artifact.Set
import LogForwarding.Audit.Baseline
import LogForwarding.Forwarder.Configuration
import LogForwarding.Node.ApplyProgram
import LogForwarding.Node.Programs

/-!
From a tenant document to the files and units of a node.  Nothing is read here: the objects that the
document refers to are part of the context.
-/

namespace LogForwarding

namespace Node

/-- The unit that runs the program which installs the configuration. -/
def unitName : String := "rsyslog-configurator.service"

def applyText (auditEnabled : Bool) : Except TemplateError String :=
  applyTemplate.fill (Json.object [("audit_enabled", .bool auditEnabled)])

def unit : Except TemplateError UnitDef := do
  let content ← unitTemplate.fill (Json.object [("apply_script", .str applyProgram)])
  return ⟨unitName, true, content⟩

/-- The keys of key material and the files for them. -/
def tlsFiles : List (String × String) :=
  [("ca", tlsCaCert), ("crt", tlsCert), ("key", tlsKey)]

end Node

def templates : List Template :=
  [Forwarder.configurationTemplate, Node.applyTemplate, Node.unitTemplate]

def renderTemplate (name : String) (data : Json) : Except SynthesisError String :=
  match templates.find? fun t => t.name = name with
  | some template => (template.fill data).mapError .template
  | none => .error (.template (.unknownTemplate name))

namespace Audit

/-- The file that takes the place of the baseline. -/
def overrideName : String := "00-rsyslog-relp.rules"

def stagedPath (name : String) : String := Node.stagedAuditRules ++ "/" ++ name

/-- The rules of the ConfigMap behind a reference. -/
def tenantRules (reference : String) (ctx : ClusterContext) : Except SynthesisError String :=
  match ctx.configMap? reference with
  | none => .error (.unresolvedReference "auditConfig.configMapReferenceName" reference)
  | some configMap =>
      match configMap.data with
      | [] => .error (.noAuditRules configMap.name)
      | (_, raw) :: _ =>
          match AuditRules.ofBytes (Bytes.ofText raw) with
          | .ok rules => .ok rules.auditRules
          | .error e => .error (.badAuditRules e)

end Audit

namespace ArtifactSet

def addPlainFiles (set : ArtifactSet) : List (String × String) → Except SynthesisError ArtifactSet
  | [] => .ok set
  | (path, content) :: rest => do
      let set ← set.addFile path .readable (.plain content)
      set.addPlainFiles rest

/-- Adds files whose content is looked up in a Secret on the node. -/
def addSecretFiles (set : ArtifactSet) (secretName : String) :
    List (String × String) → Except SynthesisError ArtifactSet
  | [] => .ok set
  | (key, path) :: rest => do
      let set ← set.addFile path .secret (.secretKey secretName key)
      set.addSecretFiles secretName rest

/-- Adds the staged audit rules, if audit rules are switched on. -/
def addAuditRules (set : ArtifactSet) (config : TenantConfig) (ctx : ClusterContext) :
    Except SynthesisError ArtifactSet :=
  match config.enabledAudit with
  | none => .ok set
  | some audit =>
      match audit.configMapReferenceName with
      | some reference => do
          let rules ← Audit.tenantRules reference ctx
          set.addFile (Audit.stagedPath Audit.overrideName) .readable
            (.base64 (Bytes.ofText rules))
      | none =>
          set.addPlainFiles (Audit.baseline.map fun (name, text) => (Audit.stagedPath name, text))

/-- Adds the files of a secured connection, if there is one. -/
def addTlsFiles (set : ArtifactSet) (config : TenantConfig) (ctx : ClusterContext) :
    Except SynthesisError ArtifactSet :=
  match config.enabledTls with
  | none => .ok set
  | some tls =>
      let reference := tls.secretReferenceName.getD ""
      match ctx.objectName? reference with
      | none => .error (.unresolvedReference "tls.secretReferenceName" reference)
      | some secretName => set.addSecretFiles secretName Node.tlsFiles

end ArtifactSet

/-- The files and units of a tenant document. -/
def synthesize (config : TenantConfig) (ctx : ClusterContext) :
    Except SynthesisError ArtifactSet := do
  let forwarder ← (Forwarder.configuration config ctx).mapError .template
  let set ← ArtifactSet.empty.addFile Node.stagedConfig .readable (.plain forwarder)
  let set ← set.addAuditRules config ctx
  let set ← set.addTlsFiles config ctx
  let apply ← (Node.applyText config.auditEnabled).mapError .template
  let set ← set.addFile Node.applyProgram .executable (.plain apply)
  let set ← set.addFile Node.statsProgramPath .executable
    (.plain (Template.unlines Node.statsProgram))
  let set ← set.addFile Node.memoryLimitsPath .readable
    (.plain (Template.unlines Node.memoryLimits))
  let unit ← Node.unit.mapError .template
  set.addUnit unit

end LogForwarding
