import LogForwarding.Cluster.Metadata
import LogForwarding.Record.Status

/-!
The record by which a tenant opts in to forwarding.
-/

namespace LogForwarding

/-- A tenant's record.  The document that configures forwarding is kept as it was written. -/
structure TenantRecord where
  metadata : ObjectMeta
  document : Option Json
  status : Option RecordStatus
deriving DecidableEq, Inhabited

/-- A step of the move of a tenant to another control plane. -/
inductive MigrationStep where
  | migrate
  | restore
deriving DecidableEq, Repr, Inhabited

def MigrationStep.name : MigrationStep → String
  | .migrate => "migrate"
  | .restore => "restore"

namespace TenantRecord

/-- The annotation that asks for a step of a migration. -/
def operationAnnotation : String := "relp.platform/operation"

/-- The annotation that asks for deletion without cleaning the nodes. -/
def forceDeleteAnnotation : String := "relp.platform/force-delete"

def decodeSpec : Decoder (Option Json) :=
  Fields.decoder (Fields.optional "providerConfig" Decoder.any) "RsyslogRelpSpec" false

def specToJson (document : Option Json) : Json :=
  Json.ofFields [("providerConfig", document)]

def decode : Decoder TenantRecord :=
  Fields.decoder
    (TenantRecord.mk <$> Fields.required "metadata" ObjectMeta.decode
      <*> Fields.required "spec" decodeSpec
      <*> Fields.optionalMember "status" RecordStatus.decode)
    "RsyslogRelp" false

def migrationStep? (record : TenantRecord) : Option MigrationStep :=
  match record.metadata.annotation? operationAnnotation with
  | some "migrate" => some .migrate
  | some "restore" => some .restore
  | _ => none

/-- Whether deletion without cleaning the nodes is asked for. -/
def forceDeleteRequested (record : TenantRecord) : Bool :=
  record.metadata.annotation? forceDeleteAnnotation = some "true"

def deleting (record : TenantRecord) : Bool :=
  record.metadata.deleting

/-- Where the tenant stands; nowhere before the first run. -/
def phase? (record : TenantRecord) : Option Phase :=
  record.status.bind RecordStatus.phase

end TenantRecord

end LogForwarding
