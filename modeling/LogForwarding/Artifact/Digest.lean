import LogForwarding.Artifact.Set
import LogForwarding.Bytes.Sha256

/-!
The digest of an artifact set, by which changes are noticed.
-/

namespace LogForwarding

def Encoding.mark : Encoding → UInt8
  | .plain => 0x70
  | .base64 => 0x62

def ArtifactSource.digestInput : ArtifactSource → Bytes
  | .inline encoding data => encoding.mark :: Bytes.ofText data
  | .secretKey secretName key => 0x73 :: Bytes.ofText secretName ++ 0 :: Bytes.ofText key

/-- The bytes that stand for a file, with a final zero. -/
def Artifact.digestInput (artifact : Artifact) : Bytes :=
  Bytes.ofText artifact.path ++ Bytes.ofWord artifact.permissions.bits ++
    artifact.source.digestInput ++ [0]

/-- The bytes that stand for a unit, with a final zero. -/
def UnitDef.digestInput (unit : UnitDef) : Bytes :=
  Bytes.ofText unit.name ++ (if unit.enable then 1 else 0) :: Bytes.ofText unit.content ++ [0]

namespace ArtifactSet

/-- The bytes that stand for a set: its files in path order, then its units. -/
def digestInput (set : ArtifactSet) : Bytes :=
  set.fileList.flatMap Artifact.digestInput ++ set.units.flatMap UnitDef.digestInput

/-- The digest of a set as hexadecimal text. -/
def digest (set : ArtifactSet) : String :=
  Sha256.hexDigest set.digestInput

end ArtifactSet

end LogForwarding
