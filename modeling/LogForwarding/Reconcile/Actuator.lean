import LogForwarding.Artifact.Digest
import LogForwarding.Artifact.Synthesis
import LogForwarding.Cleanup.Manifest
import LogForwarding.Record.Transition
import LogForwarding.Reconcile.Capability
import LogForwarding.Tenant.Validation

/-!
How a transition is carried out.  The status of the record is changed as each step is done, so what
was achieved before a failure is not forgotten.
-/

namespace LogForwarding

/-- A computation that calls on the world, changes the status of a record and may fail.  A failure
keeps the changes made before it. -/
abbrev Act := ExceptT ReconcileError (StateT RecordStatus (Dialogue Call Call.Answer))

/-- What is told of a transition that has succeeded. -/
def Transition.success : Transition → String
  | .enable _ => "Rsyslog RELP forwarding configured"
  | .disable => "Rsyslog RELP forwarding removed and nodes cleaned"
  | .forceDelete => "Rsyslog RELP forwarding force deleted without node cleanup"
  | .migrate => "Node state kept for control plane migration"
  | .retain => "Node state already handed over"

namespace Actuator

def configurationBundle : String := "rsyslog-relp-configuration"

def cleanerBundle : String := Cleanup.cleanerName

/-- Makes a call; what is not a success ends the computation. -/
def call (c : Call) : Act c.Result :=
  fun status => .ask c fun reply => .done (c.outcome reply, status)

def publish (ns bundle : String) (payload : BundlePayload) : Act Unit :=
  call (.channel ns bundle (.publish payload))

def withdraw (ns bundle : String) : Act Unit :=
  call (.channel ns bundle .withdraw)

def await (ns bundle : String) (state : BundleState) (seconds : UInt64) : Act Unit :=
  call (.channel ns bundle (.await state seconds))

/-- Removes the objects by which a tenant is observed. -/
def removeMonitoring (ns : String) : Act Unit :=
  call (.monitoring ns .remove)

def setPhase (phase : Phase) : Act Unit :=
  modify fun status => { status with phase := some phase }

/-- Sets or forgets the digest of what was published. -/
def setDigest (digest : Option String) : Act Unit :=
  modify fun status => { status with appliedDigest := digest }

/-- Sets whether there may be a cleanup bundle. -/
def setCleanup (isPresent : Bool) : Act Unit :=
  modify fun status => { status with cleanupPresent := isPresent }

/-- Withdraws the cleanup bundle if there may be one. -/
def withdrawCleanup (ns : String) : Act Unit := do
  if (← get).cleanupPresent then
    withdraw ns cleanerBundle
    setCleanup false

/-- The object of a kind to which a reference name leads. -/
def target? (ctx : ClusterContext) (kind reference : String) : Option String :=
  (ctx.reference? reference).bind fun named =>
    if named.target.kind = kind then some named.target.name else none

/-- The reference to the Secret that secured forwarding needs. -/
def secretReference? (config : TenantConfig) : Option String :=
  config.enabledTls.bind TlsConfig.secretReferenceName

/-- The reference to the ConfigMap that holds the tenant's own audit rules. -/
def auditReference? (config : TenantConfig) : Option String :=
  config.enabledAudit.bind AuditConfig.configMapReferenceName

/-- Adds the Secret of a tenant document to the view of its cluster. -/
def resolveSecret (ns : String) (config : TenantConfig) (ctx : ClusterContext) :
    Act ClusterContext :=
  match secretReference? config with
  | none => return ctx
  | some reference =>
      match target? ctx "Secret" reference with
      | none => return ctx
      | some name => do
          let found : Option SecretSnapshot ← call (.secret ns name)
          return found.elim ctx fun snapshot => ctx.resolve reference (.secret snapshot)

/-- Adds the ConfigMap of a tenant document to the view of its cluster. -/
def resolveConfigMap (ns : String) (config : TenantConfig) (ctx : ClusterContext) :
    Act ClusterContext :=
  match auditReference? config with
  | none => return ctx
  | some reference =>
      match target? ctx "ConfigMap" reference with
      | none => return ctx
      | some name => do
          let found : Option ConfigMapSnapshot ← call (.configMap ns name)
          return found.elim ctx fun snapshot => ctx.resolve reference (.configMap snapshot)

/-- The view of a tenant's cluster in which the objects are known to which its document refers.
What is not found is left to validation. -/
def resolveContext (ns : String) (config : TenantConfig) : Act ClusterContext := do
  let found : Option Cluster ← call (.cluster ns)
  match found with
  | none => throw (.clusterNotFound ns)
  | some cluster => resolveSecret ns config cluster.context >>= resolveConfigMap ns config

/-- The tenant document of a record.  It is read as the text that the record holds; a record without
one has an empty document. -/
def tenantConfig (record : TenantRecord) : Except DocumentError TenantConfig :=
  match record.document with
  | none => .ok TenantConfig.empty
  | some document => TenantConfig.ofBytes (Bytes.ofText document.print)

/-- The error that faults of a tenant document amount to. -/
def faultsError (errors : FieldErrors) : ReconcileError :=
  if errors.onlyReferences then .reference errors else .validation errors

/-- The artifacts of a tenant document in view of its cluster. -/
def artifacts (config : TenantConfig) (ctx : ClusterContext) :
    Except ReconcileError ArtifactSet :=
  match config.validate ctx with
  | [] => (synthesize config ctx).mapError .synthesis
  | errors => .error (faultsError errors)

/-- The tenant document of a record and the artifacts that it asks for. -/
def prepare (record : TenantRecord) (ns : String) : Act (TenantConfig × ArtifactSet) := do
  let config ← liftExcept ((tenantConfig record).mapError .document)
  let config := config.withDefaults
  let ctx ← resolveContext ns config
  let set ← liftExcept (artifacts config ctx)
  return (config, set)
where
  /-- A result or an error that is known without a call. -/
  liftExcept {α : Type} (result : Except ReconcileError α) : Act α :=
    fun status => .done (result, status)

/-- Brings forwarding to the nodes.  What is already there is not published again, unless the record
has come from another control plane. -/
def enable (settings : Settings) (record : TenantRecord) (ns : String) (restore : Bool) :
    Act Unit := do
  let (config, set) ← prepare record ns
  let digest := set.digest
  withdrawCleanup ns
  let status ← get
  if restore ∨ status.phase ≠ some .enabled ∨ status.appliedDigest ≠ some digest then
    publish ns configurationBundle (.ofArtifacts set)
    setDigest (some digest)
  if settings.monitoring.enabled then
    call (.monitoring ns
      (.apply (Monitoring.objects ns config.auditEnabled settings.monitoring)))
  setPhase .enabled

/-- Cleans the nodes of a cluster and takes the cleanup away again. -/
def cleanNodes (settings : Settings) (ns : String) : Act Unit := do
  publish ns cleanerBundle (.ofManifests (Cleanup.manifests settings.images))
  setCleanup true
  await ns cleanerBundle .healthy settings.cleanup.healthyTimeout
  withdraw ns cleanerBundle
  await ns cleanerBundle .deleted settings.cleanup.deletedTimeout
  setCleanup false

/-- Withdraws forwarding and cleans the nodes, if the cluster is there to stay. -/
def disable (settings : Settings) (ns : String) : Act Unit := do
  let found : Option Cluster ← call (.cluster ns)
  withdraw ns configurationBundle
  await ns configurationBundle .deleted settings.cleanup.deletedTimeout
  setDigest none
  if found.any fun cluster => !cluster.metadata.deleting then cleanNodes settings ns
  else withdrawCleanup ns
  removeMonitoring ns
  setPhase .disabled

def forceDelete (ns : String) : Act Unit := do
  withdraw ns configurationBundle
  setDigest none
  withdraw ns cleanerBundle
  setCleanup false
  removeMonitoring ns
  setPhase .forceDeleted

/-- Hands the nodes over as they are.  The tenant document is not looked at, so a faulty one does
not stand in the way. -/
def migrate (settings : Settings) (ns : String) : Act Unit := do
  call (.channel ns configurationBundle .keep)
  withdraw ns configurationBundle
  await ns configurationBundle .deleted settings.cleanup.deletedTimeout
  withdrawCleanup ns
  removeMonitoring ns
  setPhase .migrating

/-- Carries out a transition for the tenant of a namespace. -/
def transit (settings : Settings) (record : TenantRecord) (ns : String) : Transition → Act Unit
  | .enable restore => enable settings record ns restore
  | .disable => disable settings ns
  | .forceDelete => forceDelete ns
  | .migrate => migrate settings ns
  | .retain => return ()

/-- Carries out a transition for the tenant of a record. -/
def execute (settings : Settings) (record : TenantRecord) (transition : Transition) : Act Unit :=
  match record.metadata.ns with
  | none => throw (.missingKey ".metadata.namespace")
  | some ns => transit settings record ns transition

end Actuator

end LogForwarding
