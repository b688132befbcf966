import LogForwarding.Schema.Decoder

/-!
What a tenant's record says about the state of its forwarding.
-/

namespace LogForwarding

/-- Where a tenant stands. -/
inductive Phase where
  /-- Forwarding is configured on every node. -/
  | enabled
  /-- Forwarding was removed and the nodes were cleaned. -/
  | disabled
  /-- The nodes keep their state while the record moves to another control plane. -/
  | migrating
  /-- The record was removed and the nodes were not cleaned. -/
  | forceDeleted
deriving DecidableEq, Repr, Inhabited

/-- What was done to a tenant. -/
inductive OperationType where
  | reconcile
  | delete
  | migrate
  | restore
deriving DecidableEq, Repr, Inhabited

/-- How it went. -/
inductive OperationState where
  | succeeded
  /-- It failed and is tried again. -/
  | error
  /-- It failed and is not tried again before the record changes. -/
  | failed
deriving DecidableEq, Repr, Inhabited

namespace Phase

def name : Phase → String
  | .enabled => "Enabled"
  | .disabled => "Disabled"
  | .migrating => "Migrating"
  | .forceDeleted => "ForceDeleted"

def decode : Decoder Phase :=
  Decoder.variant ([enabled, disabled, migrating, forceDeleted].map fun p => (p.name, p))

def toJson (phase : Phase) : Json := .str phase.name

end Phase

namespace OperationType

def name : OperationType → String
  | .reconcile => "Reconcile"
  | .delete => "Delete"
  | .migrate => "Migrate"
  | .restore => "Restore"

def decode : Decoder OperationType :=
  Decoder.variant ([reconcile, delete, migrate, restore].map fun t => (t.name, t))

end OperationType

namespace OperationState

def name : OperationState → String
  | .succeeded => "Succeeded"
  | .error => "Error"
  | .failed => "Failed"

def decode : Decoder OperationState :=
  Decoder.variant ([succeeded, error, failed].map fun s => (s.name, s))

end OperationState

/-- The latest operation on a tenant. -/
structure LastOperation where
  type : OperationType
  state : OperationState
  description : String
  updated : String
deriving DecidableEq, Repr, Inhabited

/-- Why the latest operation failed. -/
structure LastError where
  description : String
  /-- The field of the tenant document that is at fault, if one is. -/
  fieldPath : Option String
  retryable : Bool
deriving DecidableEq, Repr, Inhabited

/-- The state of a tenant. -/
structure RecordStatus where
  phase : Option Phase
  observedGeneration : Option Int64
  /-- The digest of the artifacts that were last published to the nodes. -/
  appliedDigest : Option String
  /-- There may still be a cleanup bundle. -/
  cleanupPresent : Bool
  lastOperation : Option LastOperation
  lastError : Option LastError
deriving DecidableEq, Inhabited

namespace LastOperation

def decode : Decoder LastOperation :=
  Fields.decoder
    (LastOperation.mk <$> Fields.required "type" OperationType.decode
      <*> Fields.required "state" OperationState.decode
      <*> Fields.required "description" Decoder.text
      <*> Fields.required "lastUpdateTime" Decoder.text)
    "LastOperation" false

def toJson (operation : LastOperation) : Json :=
  Json.object
    [("type", .str operation.type.name), ("state", .str operation.state.name),
     ("description", .str operation.description), ("lastUpdateTime", .str operation.updated)]

end LastOperation

namespace LastError

def decode : Decoder LastError :=
  Fields.decoder
    (LastError.mk <$> Fields.required "description" Decoder.text
      <*> Fields.optionalMember "fieldPath" Decoder.text
      <*> Fields.required "retryable" Decoder.boolean)
    "LastError" false

def toJson (error : LastError) : Json :=
  Json.ofFields
    [("description", some (.str error.description)), ("fieldPath", error.fieldPath.map .str),
     ("retryable", some (.bool error.retryable))]

end LastError

namespace RecordStatus

/-- The state of a tenant that was never looked at. -/
def initial : RecordStatus := ⟨none, none, none, false, none, none⟩

def decode : Decoder RecordStatus :=
  Fields.decoder
    (RecordStatus.mk <$> Fields.optionalMember "phase" Phase.decode
      <*> Fields.optionalMember "observedGeneration" Decoder.int64
      <*> Fields.optionalMember "lastAppliedArtifactHash" Decoder.text
      <*> Fields.withDefault "cleanupJobPresent" Decoder.boolean false
      <*> Fields.optionalMember "lastOperation" LastOperation.decode
      <*> Fields.optionalMember "lastError" LastError.decode)
    "RsyslogRelpStatus" false

/-- The members of a state; what is absent has no member. -/
def members (status : RecordStatus) : List (String × Option Json) :=
  [("phase", status.phase.map Phase.toJson),
   ("observedGeneration", status.observedGeneration.map fun n => .int n.toInt),
   ("lastAppliedArtifactHash", status.appliedDigest.map .str),
   ("cleanupJobPresent", some (.bool status.cleanupPresent)),
   ("lastOperation", status.lastOperation.map LastOperation.toJson),
   ("lastError", status.lastError.map LastError.toJson)]

def toJson (status : RecordStatus) : Json :=
  Json.ofFields status.members

end RecordStatus

end LogForwarding
