import LogForwarding.Reconcile.Capability

/-!
A world that answers the calls of a transition from what it holds, and fails as it is told to.
-/

namespace LogForwarding.Simulation

/-- A world for transitions. -/
structure World where
  cluster : Option Cluster
  /-- The Secrets by name. -/
  secrets : Dictionary SecretSnapshot
  /-- The ConfigMaps by name. -/
  configMaps : Dictionary ConfigMapSnapshot
  /-- Which calls fail, and why. -/
  failing : (call : Call) → Option call.Error
  /-- The controller is told to stop when this many calls have been made before. -/
  stopAtCall : Option Nat
  /-- The controller was told to stop. -/
  stopped : Bool
  /-- The calls that were made, the latest first. -/
  calls : List Call

namespace World

def result (world : World) : (call : Call) → call.Result
  | .channel _ _ _ => ()
  | .monitoring _ _ => ()
  | .cluster _ => world.cluster
  | .secret _ name => Dictionary.find? world.secrets name
  | .configMap _ name => Dictionary.find? world.configMaps name

/-- Answers a call.  No part begins any more when the controller was told to stop; a call that is
made is answered. -/
def answer (call : Call) (world : World) : call.Answer × World :=
  if call.beginsPart ∧ world.stopped then (.cancelled, world)
  else
    let stopped := world.stopped || world.stopAtCall = some world.calls.length
    let after := { world with stopped := stopped, calls := call :: world.calls }
    match world.failing call with
    | some error => (.failed error, after)
    | none => (.ok (world.result call), after)

end World

end LogForwarding.Simulation
