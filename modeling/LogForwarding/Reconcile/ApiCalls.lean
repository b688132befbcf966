import LogForwarding.Bundle.Codec
import LogForwarding.Cluster.Snapshot
import LogForwarding.Reconcile.Session

/-!
How each call is made with requests to an API server.
-/

namespace LogForwarding

namespace NodeBundle

/-- The object that is written to publish a payload. -/
def publication (ns name : String) (payload : BundlePayload) : Json :=
  Json.object
    [("apiVersion", .str ResourceKind.bundle.apiVersion),
     ("kind", .str ResourceKind.bundle.kind),
     ("metadata", Json.object
       [("name", .str name), ("namespace", .str ns),
        ("labels", Json.object [managedByLabel])]),
     ("spec", (BundleSpec.mk payload false).toJson)]

/-- The change after which the nodes keep everything. -/
def keepChange : Json :=
  Json.object [("spec", Json.object [("keepObjects", .bool true)])]

end NodeBundle

/-- Whether what was read of a bundle is the state that is waited for. -/
def BundleState.holds : BundleState → Option NodeBundle → Bool
  | .healthy, found => found.any NodeBundle.isHealthy
  | .deleted, found => found.isNone

namespace ApiCalls

/-- Reads the answer to the removal of an object.  A removal may also be answered with the mere
statement that it was done. -/
def removed {α : Type} (decode : Decoder α) : Decoder Unit := fun body =>
  if body.get? "kind" = some (.str "Status") then .ok () else (decode body).map fun _ => ()

/-- Reads any object, of which only the metadata is of a known form. -/
def anyObject : Decoder Unit :=
  Fields.objectDecoder ((fun _ => ()) <$> Fields.optional "metadata" ObjectMeta.decode)
    "struct DynamicObject"

/-- Looks at a bundle at regular intervals until it is in a state.  `looks` says how often there is
time for a look, and `rest` how much time is left altogether. -/
def lookAt (key : ObjectKey) (state : BundleState) (interval timeout : Nat) :
    (looks rest : Nat) → Session (Reply ChannelError Unit)
  | 0, rest => do
      if ← Session.pause rest then return .cancelled
      return .failed (.timeout key.name state timeout)
  | looks + 1, rest => do
      match ← Session.read key NodeBundle.decode with
      | .cancelled => return .cancelled
      | .failed error => return .failed (.request key.name error)
      | .ok found =>
          if state.holds found then return .ok ()
          else if looks = 0 then lookAt key state interval timeout 0 rest
          else if ← Session.pause interval then return .cancelled
          else lookAt key state interval timeout looks (rest - interval)

/-- Waits for a state of a bundle.  There is a look at once and after each interval, as long as it
is before the end of the time. -/
def await (key : ObjectKey) (state : BundleState) (interval timeout : Nat) :
    Session (Reply ChannelError Unit) :=
  lookAt key state interval timeout ((timeout + interval - 1) / interval) timeout

def channel (interval : Nat) (key : ObjectKey) : ChannelAction → Session (Reply ChannelError Unit)
  | .publish payload => do
      let body := NodeBundle.publication (key.ns.getD "") key.name payload
      let reply ← Session.attempt (.apply key body) NodeBundle.decode
      return (reply.map fun _ => ()).mapError (.request key.name)
  | .keep => do
      let reply ← Session.write (.merge key NodeBundle.keepChange) NodeBundle.decode
      return reply.mapError (.request key.name)
  | .withdraw => do
      let reply ← Session.write (.delete key) (removed NodeBundle.decode)
      return reply.mapError (.request key.name)
  | .await state seconds => await key state interval seconds.toNat

/-- Does one thing after the other, as long as all goes well. -/
def inTurn {α : Type} (act : α → Session (Reply RequestError Unit)) :
    List α → Session (Reply RequestError Unit)
  | [] => return .ok ()
  | item :: rest => do
      match ← act item with
      | .ok () => inTurn act rest
      | stopped => return stopped

/-- Writes or removes the objects by which a tenant is observed. -/
def monitoring (ns : String) : MonitoringAction → Session (Reply RequestError Unit)
  | .apply objects =>
      inTurn (fun object => Session.attempt (.apply ⟨object.kind, some ns, object.name⟩ object.body)
        anyObject) objects
  | .remove =>
      inTurn (fun (kind, name) => Session.write (.delete ⟨kind, some ns, name⟩) (removed anyObject))
        Monitoring.objectNames

def perform (interval : Nat) : (call : Call) → Session call.Answer
  | .channel ns bundle action => channel interval ⟨.bundle, some ns, bundle⟩ action
  | .monitoring ns action => monitoring ns action
  | .cluster ns => Session.read ⟨.cluster, none, ns⟩ Cluster.decode
  | .secret ns name => Session.read ⟨.secret, some ns, name⟩ (SecretSnapshot.decode name)
  | .configMap ns name => Session.read ⟨.configMap, some ns, name⟩ (ConfigMapSnapshot.decode name)

end ApiCalls

end LogForwarding
