import LogForwarding.Schema.Decoder

/-!
What a tenant document is checked against: the identity of the tenant's cluster, the names under
which it refers to Secrets and ConfigMaps, and what is known of these objects.
-/

namespace LogForwarding

/-- An object that a cluster refers to. -/
structure ResourceRef where
  kind : String
  name : String
deriving DecidableEq, Repr, Inhabited

/-- A name of an object for use in tenant documents. -/
structure NamedReference where
  name : String
  target : ResourceRef
deriving DecidableEq, Repr, Inhabited

/-- What is known of a Secret; its values are never looked at. -/
structure SecretSnapshot where
  name : String
  immutable : Bool
  /-- In increasing order. -/
  keys : List String
deriving DecidableEq, Repr, Inhabited

/-- What is known of a ConfigMap. -/
structure ConfigMapSnapshot where
  name : String
  immutable : Bool
  data : Dictionary String
  binaryKeys : List String
deriving DecidableEq, Repr, Inhabited

/-- The number of keys with a text or with bytes. -/
def ConfigMapSnapshot.keyCount (configMap : ConfigMapSnapshot) : Nat :=
  configMap.data.length + configMap.binaryKeys.length

/-- An object behind a reference. -/
inductive ResolvedResource where
  | secret (snapshot : SecretSnapshot)
  | configMap (snapshot : ConfigMapSnapshot)
deriving DecidableEq, Repr, Inhabited

/-- The view of a cluster on which validation and synthesis rest. -/
structure ClusterContext where
  projectName : String
  clusterName : String
  clusterUid : String
  kubernetesVersion : String
  references : List NamedReference
  /-- The objects that were found, by reference name. -/
  resolved : Dictionary ResolvedResource
  /-- The cluster itself is being torn down. -/
  deleting : Bool
deriving DecidableEq, Repr, Inhabited

namespace ClusterContext

/-- The reference of a name; of several the first. -/
def reference? (ctx : ClusterContext) (name : String) : Option NamedReference :=
  ctx.references.find? fun r => r.name = name

def resolved? (ctx : ClusterContext) (name : String) : Option ResolvedResource :=
  Dictionary.find? ctx.resolved name

/-- The name of the object behind a reference name. -/
def objectName? (ctx : ClusterContext) (name : String) : Option String :=
  (ctx.reference? name).map fun r => r.target.name

def secret? (ctx : ClusterContext) (name : String) : Option SecretSnapshot :=
  match ctx.resolved? name with
  | some (.secret snapshot) => some snapshot
  | _ => none

def configMap? (ctx : ClusterContext) (name : String) : Option ConfigMapSnapshot :=
  match ctx.resolved? name with
  | some (.configMap snapshot) => some snapshot
  | _ => none

/-- The view in which the object of a reference name is known. -/
def resolve (ctx : ClusterContext) (name : String) (resource : ResolvedResource) : ClusterContext :=
  ⟨ctx.projectName, ctx.clusterName, ctx.clusterUid, ctx.kubernetesVersion, ctx.references,
    Dictionary.insert name resource ctx.resolved, ctx.deleting⟩

end ClusterContext

namespace ResourceRef

def decode : Decoder ResourceRef :=
  Fields.decoder
    (ResourceRef.mk <$> Fields.required "kind" Decoder.text <*> Fields.required "name" Decoder.text)
    "ResourceRef" false

def toJson (ref : ResourceRef) : Json :=
  Json.object [("kind", .str ref.kind), ("name", .str ref.name)]

end ResourceRef

namespace NamedReference

def decode : Decoder NamedReference :=
  Fields.decoder
    (NamedReference.mk <$> Fields.required "name" Decoder.text
      <*> Fields.required "resourceRef" ResourceRef.decode)
    "NamedResourceReference" false

def toJson (ref : NamedReference) : Json :=
  Json.object [("name", .str ref.name), ("resourceRef", ref.target.toJson)]

end NamedReference

end LogForwarding
