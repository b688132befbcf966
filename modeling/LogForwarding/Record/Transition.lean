import LogForwarding.Record.Basic

/-!
What is to be done about a record.  The record alone decides: force deletion comes before deletion,
deletion before migration, and migration before enabling.
-/

namespace LogForwarding

/-- What is to be done about a tenant. -/
inductive Transition where
  /-- Bring forwarding to the nodes.  A `restore` publishes even when nothing has changed, for the
  record has come from another control plane. -/
  | enable (restore : Bool)
  /-- Withdraw forwarding and clean the nodes, unless the cluster itself goes away. -/
  | disable
  /-- Withdraw forwarding without waiting and without cleaning the nodes. -/
  | forceDelete
  /-- Withdraw from this control plane and leave the nodes as they are. -/
  | migrate
  /-- Do nothing, for the nodes were handed over before. -/
  | retain
deriving DecidableEq, Repr, Inhabited

namespace Transition

/-- What is to be done about a record. -/
def plan (record : TenantRecord) : Transition :=
  let handedOver := record.phase? = some .migrating
  if record.deleting then
    if record.forceDeleteRequested then .forceDelete
    else if handedOver then .retain
    else if record.migrationStep? = some .migrate then .migrate
    else .disable
  else
    match record.migrationStep? with
    | some .migrate => if handedOver then .retain else .migrate
    | some .restore => .enable true
    | none => .enable false

def operation : Transition → OperationType
  | .enable true => .restore
  | .enable false => .reconcile
  | .disable | .forceDelete => .delete
  | .migrate | .retain => .migrate

def isTeardown : Transition → Bool
  | .disable | .forceDelete => true
  | _ => false

def text : Transition → String
  | .enable restore => "Enable \x7b restore: " ++ (if restore then "true" else "false") ++ " \x7d"
  | .disable => "Disable"
  | .forceDelete => "ForceDelete"
  | .migrate => "Migrate"
  | .retain => "Retain"

end Transition

end LogForwarding
