import LogForwarding.Artifact.Set
import LogForwarding.Cluster.Metadata

/-!
Bundles: what the distribution agent brings to every node of a cluster, and how it says that the
nodes have got it.
-/

namespace LogForwarding

/-- Content that stands in the bundle itself. -/
structure InlineContent where
  /-- Empty for plain text, `b64` for Base64. -/
  encoding : String
  data : String
deriving DecidableEq, Repr, Inhabited

/-- Content that the node looks up in a Secret. -/
structure SecretKeyRef where
  name : String
  key : String
deriving DecidableEq, Repr, Inhabited

/-- Where the content of a file is found: in one of two places. -/
structure BundleContent where
  inline : Option InlineContent
  secret : Option SecretKeyRef
deriving DecidableEq, Repr, Inhabited

/-- A file of a bundle. -/
structure BundleFile where
  path : String
  permissions : UInt32
  content : BundleContent
deriving DecidableEq, Repr, Inhabited

/-- A unit of a bundle. -/
structure BundleUnit where
  name : String
  enable : Bool
  content : Option String
deriving DecidableEq, Repr, Inhabited

/-- What a bundle brings to the nodes. -/
structure BundlePayload where
  files : List BundleFile
  units : List BundleUnit
  /-- Objects that the agent puts into the cluster. -/
  manifests : List Json
deriving DecidableEq, Inhabited

/-- What is wanted of a bundle. -/
structure BundleSpec where
  payload : BundlePayload
  /-- The nodes keep everything when the bundle goes away. -/
  keepObjects : Bool
deriving DecidableEq, Inhabited

/-- A condition that the agent reports. -/
structure BundleCondition where
  type : String
  /-- `True`, `False` or `Unknown`. -/
  status : String
  reason : Option String
  message : Option String
  lastTransition : Option String
deriving DecidableEq, Repr, Inhabited

/-- What the agent reports of a bundle. -/
structure BundleStatus where
  observedGeneration : Option Int64
  conditions : List BundleCondition
deriving DecidableEq, Inhabited

/-- A bundle as it is kept by the API server. -/
structure NodeBundle where
  metadata : ObjectMeta
  spec : BundleSpec
  status : Option BundleStatus
deriving DecidableEq, Inhabited

namespace NodeBundle

def healthyCondition : String := "Healthy"

/-- Whether the agent has seen the bundle as it is now.  A bundle that counts no changes is always
seen. -/
def isCurrent (bundle : NodeBundle) (status : BundleStatus) : Bool :=
  match bundle.metadata.generation, status.observedGeneration with
  | none, _ => true
  | some generation, some observed => generation ≤ observed
  | some _, none => false

/-- Whether every node has converged to the bundle as it is now. -/
def isHealthy (bundle : NodeBundle) : Bool :=
  match bundle.status with
  | none => false
  | some status =>
      bundle.isCurrent status &&
        status.conditions.any fun c => c.type = healthyCondition ∧ c.status = "True"

/-- What the agent says about nodes that have not converged; only the first report counts. -/
def unhealthyReason? (bundle : NodeBundle) : Option String := do
  let status ← bundle.status
  let condition ← status.conditions.find? fun c => c.type = healthyCondition ∧ c.status = "False"
  condition.message

end NodeBundle

namespace BundleContent

def ofSource : ArtifactSource → BundleContent
  | .inline .plain data => ⟨some ⟨"", data⟩, none⟩
  | .inline .base64 data => ⟨some ⟨"b64", data⟩, none⟩
  | .secretKey secretName key => ⟨none, some ⟨secretName, key⟩⟩

end BundleContent

/-- The file of a bundle that brings an artifact. -/
def BundleFile.ofArtifact (artifact : Artifact) : BundleFile :=
  ⟨artifact.path, artifact.permissions.bits, .ofSource artifact.source⟩

/-- The unit of a bundle that brings a unit. -/
def BundleUnit.ofUnit (unit : UnitDef) : BundleUnit :=
  ⟨unit.name, unit.enable, some unit.content⟩

namespace BundlePayload

/-- The payload that brings a set of artifacts, its files in path order. -/
def ofArtifacts (set : ArtifactSet) : BundlePayload :=
  ⟨set.fileList.map .ofArtifact, set.units.map .ofUnit, []⟩

def ofManifests (manifests : List Json) : BundlePayload :=
  ⟨[], [], manifests⟩

end BundlePayload

end LogForwarding
