import LogForwarding.Reconcile.Actuator
import LogForwarding.Reconcile.Care

/-!
How a record is looked after: its finalizer stands before anything is done for it, its transition is
carried out, the outcome is stored in its status, and it is looked at again after some time.
-/

namespace LogForwarding

namespace Controller

/-- The finalizer by which this controller holds on to a record. -/
def finalizerName : String := "extensions.relp.platform/rsyslog-relp"

def recordKey (ns name : String) : ObjectKey := ⟨.record, some ns, name⟩

/-- Changes a record, come what may.  A record without a name cannot be changed. -/
def change (key : ObjectKey) (request : ApiRequest) : Care (Except RequestError Unit) :=
  if key.name = "" then return .error .unnamed
  else do
    let result ← Care.ofSession (Session.request request TenantRecord.decode)
    return result.map fun _ => ()

/-- The members of a status that a change has to name even when they are absent. -/
def clearedMembers : List String := ["lastAppliedArtifactHash", "lastError"]

/-- The members that the change of a status names.  What a change does not name stays as it was, so a
member that was cleared is named and null. -/
def statusMembers (status : RecordStatus) : List (String × Json) :=
  status.members.filterMap fun (name, value) =>
    if name ∈ clearedMembers then some (name, value.getD .null)
    else value.map fun v => (name, v)

/-- The change after which a status is stored. -/
def statusChange (status : RecordStatus) : Json :=
  Json.object [("status", Json.object (statusMembers status))]

/-- The change after which no step of a migration is asked for. -/
def annotationChange : Json :=
  Json.object
    [("metadata", Json.object
      [("annotations", Json.object [(TenantRecord.operationAnnotation, .null)])])]

/-- What the record tells of a transition that has come to an end. -/
def report (record : TenantRecord) (transition : Transition) (result : Except ReconcileError Unit)
    (time : String) (status : RecordStatus) : RecordStatus :=
  let operation (state : OperationState) (description : String) : LastOperation :=
    ⟨transition.operation, state, description, time⟩
  match result with
  | .ok () =>
      { status with
        observedGeneration := record.metadata.generation
        lastOperation := some (operation .succeeded transition.success)
        lastError := none }
  | .error error =>
      { status with
        observedGeneration := record.metadata.generation
        lastOperation :=
          some (operation (if error.isRetryable then .error else .failed) error.message)
        lastError := some ⟨error.message, error.fieldPath?, error.isRetryable⟩ }

/-- When a record is looked at again: after some seconds, or not before it changes. -/
abbrev Requeue := Option UInt64

/-- When a record is looked at again after a failure. -/
def retryAfter (settings : Settings) (error : ReconcileError) : Requeue :=
  if error.isRetryable then some settings.requeue.error else none

/-- What follows a transition that has succeeded and whose outcome is stored. -/
def conclude (settings : Settings) (key : ObjectKey) :
    Transition → Care (Except ReconcileError Requeue)
  | .enable true => do
      match ← change key (.merge key annotationChange) with
      | .ok () => return .ok (some settings.requeue.success)
      | .error error => return .error (.request error)
  | .enable false => return .ok (some settings.requeue.success)
  | _ => return .ok none

/-- Carries out the transition of a record and stores what came of it.  A failure to store the
outcome only counts when the transition has succeeded. -/
def runTransition (settings : Settings) (record : TenantRecord) (ns : String) :
    Care (Except ReconcileError Requeue) := do
  let key := recordKey ns (record.metadata.name.getD "")
  let transition := Transition.plan record
  let (result, status) ← Care.ofCalls
    (Actuator.execute settings record transition (record.status.getD .initial))
  let time ← Care.ofSession Session.now
  let stored ← change key
    (.mergeStatus key (statusChange (report record transition result time status)))
  match result, stored with
  | .error error, _ => return .error error
  | .ok (), .error error => return .error (.request error)
  | .ok (), .ok () => conclude settings key transition

/-- The place of the finalizers of a record. -/
def finalizersPlace : List String := ["metadata", "finalizers"]

/-- The operations that add the finalizer to those of a record, if nobody has changed them. -/
def addFinalizer (present : List String) : List PatchOperation :=
  if present = [] then
    [.test finalizersPlace .null, .add finalizersPlace (Json.texts [finalizerName])]
  else
    [.test finalizersPlace (Json.texts present),
     .add (finalizersPlace ++ ["-"]) (.str finalizerName)]

/-- The operations that take the finalizer away from its position, if it is still there. -/
def removeFinalizer (position : Nat) : List PatchOperation :=
  let place := finalizersPlace ++ [toString position]
  [.test place (.str finalizerName), .remove place]

def reconcileIn (settings : Settings) (record : TenantRecord) (ns : String) :
    Care (Except ReconcileError Requeue) :=
  let present := record.metadata.finalizers
  match present.findIdx? (· = finalizerName), record.deleting, record.metadata.name with
  | some _, false, _ => runTransition settings record ns
  | none, true, _ => return .ok none
  | _, _, none => return .error (.missingKey ".metadata.name")
  | none, false, some name => do
      let key := recordKey ns name
      match ← change key (.patch key (addFinalizer present)) with
      | .ok () => return .ok none
      | .error error => return .error (.request error)
  | some position, true, some name => do
      match ← runTransition settings record ns with
      | .error error => return .error error
      | .ok requeue =>
          let key := recordKey ns name
          match ← change key (.patch key (removeFinalizer position)) with
          | .ok () => return .ok requeue
          | .error error => return .error (.request error)

/-- Looks after a record, whichever way its calls are made. -/
def care (settings : Settings) (record : TenantRecord) :
    Care (Except ReconcileError Requeue) :=
  match record.metadata.ns with
  | none => return .error (.missingKey ".metadata.namespace")
  | some ns => reconcileIn settings record ns

/-- Looks after a record with requests to an API server. -/
def reconcile (settings : Settings) (record : TenantRecord) :
    Session (Except ReconcileError Requeue) :=
  (care settings record).toSession settings.cleanup.pollInterval.toNat

def nextLook (settings : Settings) : Except ReconcileError Requeue → Requeue
  | .ok requeue => requeue
  | .error error => retryAfter settings error

/-- Looks after a record again and again, but no more often than this, until it is left alone or the
controller is told to stop. -/
def lookAfter (settings : Settings) (record : TenantRecord) : (rounds : Nat) → Session Unit
  | 0 => return ()
  | rounds + 1 => do
      let result ← reconcile settings record
      match nextLook settings result with
      | none => return ()
      | some seconds =>
          if ← Session.pause seconds.toNat then return ()
          else lookAfter settings record rounds

def decodeList : Decoder (List TenantRecord) :=
  Fields.decoder (Fields.required "items" (Decoder.list TenantRecord.decode)) "ObjectList" false

/-- The records that are there when the controller begins.  They are listed once to be told of, and
once more before changes are watched. -/
def begin (settings : Settings) : Session (List TenantRecord) := do
  let ns := settings.work.watchNamespace
  let _ ← Session.request (.list .record ns) decodeList
  let found ← Session.request (.list .record ns) decodeList
  let _ ← Session.request (.watch .record ns) Decoder.any
  return match found with
    | .ok records => records
    | .error _ => []

end Controller

end LogForwarding
