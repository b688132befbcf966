import LogForwarding.Api.Request
import LogForwarding.Artifact.Error
import LogForwarding.Settings.Validation
import LogForwarding.Tenant.FieldError

/-!
Why looking after a tenant fails, and whether it is worth another try.
-/

namespace LogForwarding

/-- The state of a bundle that is waited for. -/
inductive BundleState where
  /-- Every node has converged. -/
  | healthy
  /-- There is no bundle any more. -/
  | deleted
deriving DecidableEq, Repr, Inhabited

def BundleState.word : BundleState → String
  | .healthy => "healthy"
  | .deleted => "deleted"

/-- Why a bundle is not what it should be. -/
inductive ChannelError where
  | request (bundle : String) (error : RequestError)
  /-- The bundle did not come into the state in time. -/
  | timeout (bundle : String) (state : BundleState) (seconds : Nat)
  /-- The bundle cannot be written down. -/
  | unwritable (reason : String)
deriving DecidableEq, Inhabited

def ChannelError.message : ChannelError → String
  | .request bundle error => "bundle " ++ bundle ++ ": " ++ error.message
  | .timeout bundle state seconds =>
      "bundle " ++ bundle ++ " not " ++ state.word ++ " after " ++ toString seconds ++ "s"
  | .unwritable reason => "Serialization error: " ++ reason

/-- Why looking after a tenant fails. -/
inductive ReconcileError where
  /-- The tenant document is at fault. -/
  | validation (errors : FieldErrors)
  /-- Only objects are at fault to which the tenant document refers. -/
  | reference (errors : FieldErrors)
  | document (error : DocumentError)
  | synthesis (error : SynthesisError)
  | channel (error : ChannelError)
  | clusterNotFound (ns : String)
  /-- The controller was told to stop. -/
  | cancelled
  | request (error : RequestError)
  | settings (error : SettingsError)
  /-- The record lacks a part of its name. -/
  | missingKey (place : String)
deriving DecidableEq, Inhabited

namespace ReconcileError

def message : ReconcileError → String
  | .validation errors => "invalid providerConfig: " ++ errors.message
  | .reference errors => "invalid referenced resource: " ++ errors.message
  | .document error => "malformed providerConfig: " ++ error.message
  | .synthesis error => "artifact synthesis failed: " ++ error.message
  | .channel error => "distribution channel error: " ++ error.message
  | .clusterNotFound ns => "Cluster " ++ ns ++ " not found"
  | .cancelled => "reconcile cancelled"
  | .request error => "Kubernetes API error: " ++ error.message
  | .settings error => "Configuration error: " ++ error.message
  | .missingKey place => "Missing object key: " ++ place

/-- Whether another try can succeed although the record has not changed. -/
def isRetryable : ReconcileError → Bool
  | .channel _ | .clusterNotFound _ | .cancelled | .request _ => true
  | _ => false

def isTimeout : ReconcileError → Bool
  | .channel (.timeout _ _ _) => true
  | _ => false

/-- The field of the tenant document that is at fault. -/
def fieldPath? : ReconcileError → Option String
  | .validation errors | .reference errors => errors.firstField
  | _ => none

end ReconcileError

end LogForwarding
