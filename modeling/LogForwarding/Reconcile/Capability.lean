import LogForwarding.Bundle.Basic
import LogForwarding.Cluster.Object
import LogForwarding.Monitoring.Object
import LogForwarding.Reconcile.Dialogue
import LogForwarding.Reconcile.Error

/-!
All that a tenant's transition can do to the world.  Each call says by its type how it can end.
-/

namespace LogForwarding

/-- What can be done to a bundle. -/
inductive ChannelAction where
  /-- Create the bundle or put this payload in the place of its earlier one. -/
  | publish (payload : BundlePayload)
  /-- See to it that the nodes keep everything when the bundle goes away. -/
  | keep
  | withdraw
  /-- Wait until the bundle is in a state, but no longer than this. -/
  | await (state : BundleState) (seconds : UInt64)
deriving DecidableEq, Inhabited

/-- What can be done to the objects by which a tenant is observed. -/
inductive MonitoringAction where
  | apply (objects : List ManagedObject)
  | remove
deriving DecidableEq, Inhabited

/-- A call on the world. -/
inductive Call where
  | channel (ns bundle : String) (action : ChannelAction)
  | monitoring (ns : String) (action : MonitoringAction)
  /-- Read the cluster of a namespace. -/
  | cluster (ns : String)
  | secret (ns name : String)
  | configMap (ns name : String)
deriving DecidableEq, Inhabited

/-- How a call ends. -/
inductive Reply (ε α : Type) where
  | ok (result : α)
  | failed (error : ε)
  /-- The controller was told to stop before the call was over. -/
  | cancelled
deriving DecidableEq, Inhabited

namespace Reply

variable {ε ε' α β : Type}

def mapError (f : ε → ε') : Reply ε α → Reply ε' α
  | .ok result => .ok result
  | .failed error => .failed (f error)
  | .cancelled => .cancelled

def map (f : α → β) : Reply ε α → Reply ε β
  | .ok result => .ok (f result)
  | .failed error => .failed error
  | .cancelled => .cancelled

/-- The reply of something that has a result or an error. -/
def ofExcept : Except ε α → Reply ε α
  | .ok result => .ok result
  | .error error => .failed error

end Reply

namespace Call

def Error : Call → Type
  | .channel _ _ _ => ChannelError
  | _ => RequestError

def Result : Call → Type
  | .cluster _ => Option Cluster
  | .secret _ _ => Option SecretSnapshot
  | .configMap _ _ => Option ConfigMapSnapshot
  | _ => Unit

abbrev Answer (call : Call) : Type := Reply call.Error call.Result

/-- The failure of a call as one of its tenant. -/
def liftError : (call : Call) → call.Error → ReconcileError
  | .channel _ _ _, error => .channel error
  | .monitoring _ _, error | .cluster _, error | .secret _ _, error | .configMap _ _, error =>
      .request error

def outcome (call : Call) : call.Answer → Except ReconcileError call.Result
  | .ok result => .ok result
  | .failed error => .error (call.liftError error)
  | .cancelled => .error .cancelled

/-- Whether a part begins with the call that is given up as a whole.  The reads that follow the read
of a cluster belong to one part with it. -/
def beginsPart : Call → Bool
  | .secret _ _ | .configMap _ _ => false
  | _ => true

end Call

end LogForwarding
