import LogForwarding.Cluster.Context
import LogForwarding.Cluster.Metadata

/-!
The object that describes a tenant's cluster.  Its name is the namespace of the tenant.
-/

namespace LogForwarding

/-- The identity of a cluster and the names that tenant documents may use. -/
structure ClusterSpec where
  projectName : String
  clusterName : String
  clusterUid : String
  kubernetesVersion : String
  references : List NamedReference
deriving DecidableEq, Inhabited

/-- A cluster as it is kept by the API server. -/
structure Cluster where
  metadata : ObjectMeta
  spec : ClusterSpec
deriving DecidableEq, Inhabited

namespace ClusterSpec

def decode : Decoder ClusterSpec :=
  Fields.decoder
    (ClusterSpec.mk <$> Fields.required "projectName" Decoder.text
      <*> Fields.required "clusterName" Decoder.text
      <*> Fields.required "clusterUID" Decoder.text
      <*> Fields.required "kubernetesVersion" Decoder.text
      <*> Fields.withDefault "resources" (Decoder.list NamedReference.decode) [])
    "ClusterSpec" false

def toJson (spec : ClusterSpec) : Json :=
  Json.object
    [("projectName", .str spec.projectName), ("clusterName", .str spec.clusterName),
     ("clusterUID", .str spec.clusterUid), ("kubernetesVersion", .str spec.kubernetesVersion),
     ("resources", .arr (spec.references.map NamedReference.toJson))]

end ClusterSpec

namespace Cluster

def decode : Decoder Cluster :=
  Fields.decoder
    (Cluster.mk <$> Fields.required "metadata" ObjectMeta.decode
      <*> Fields.required "spec" ClusterSpec.decode)
    "Cluster" false

/-- The view of a cluster before any of its references is resolved. -/
def context (cluster : Cluster) : ClusterContext :=
  ⟨cluster.spec.projectName, cluster.spec.clusterName, cluster.spec.clusterUid,
    cluster.spec.kubernetesVersion, cluster.spec.references, [], cluster.metadata.deleting⟩

end Cluster

end LogForwarding
