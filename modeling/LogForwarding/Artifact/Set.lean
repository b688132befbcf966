import LogForwarding.Artifact.Error
import LogForwarding.Artifact.Source

/-!
Everything that one tenant needs on a node: files by path, and units in the order in which they were
declared.
-/

namespace LogForwarding

/-- A file of a node. -/
structure Artifact where
  path : String
  permissions : FileMode
  source : ArtifactSource
deriving DecidableEq, Repr, Inhabited

/-- A unit of the node's service manager. -/
structure UnitDef where
  name : String
  enable : Bool
  content : String
deriving DecidableEq, Repr, Inhabited

/-- The files and units of one tenant. -/
structure ArtifactSet where
  files : Dictionary Artifact
  units : List UnitDef
deriving DecidableEq, Repr, Inhabited

def beginsWith (text start : String) : Bool :=
  start.toList.isPrefixOf text.toList

namespace ArtifactSet

def empty : ArtifactSet := ⟨[], []⟩

/-- Adds a file.  Its path must be absolute and new. -/
def addFile (set : ArtifactSet) (path : String) (permissions : FileMode)
    (source : ArtifactSource) : Except SynthesisError ArtifactSet :=
  if ¬ beginsWith path "/" then .error (.relativePath path)
  else if Dictionary.contains set.files path then .error (.duplicatePath path)
  else .ok ⟨Dictionary.insert path ⟨path, permissions, source⟩ set.files, set.units⟩

/-- Appends a unit.  Its name must be new. -/
def addUnit (set : ArtifactSet) (unit : UnitDef) : Except SynthesisError ArtifactSet :=
  if set.units.any fun u => u.name = unit.name then .error (.duplicateUnit unit.name)
  else .ok ⟨set.files, set.units ++ [unit]⟩

def fileList (set : ArtifactSet) : List Artifact :=
  Dictionary.values set.files

def file? (set : ArtifactSet) (path : String) : Option Artifact :=
  Dictionary.find? set.files path

/-- The inline content of a file, if it is text. -/
def text? (set : ArtifactSet) (path : String) : Option String :=
  (set.file? path).bind fun file => file.source.bytes?.bind Bytes.toText?

/-- The paths that begin with a text, in order.  In path order they stand together, and the first of
them is the first path that is not less than the text. -/
def pathsUnder (set : ArtifactSet) (start : String) : List String :=
  ((Dictionary.keys set.files).dropWhile fun path => path < start).takeWhile
    fun path => beginsWith path start

end ArtifactSet

namespace Artifact

def decode : Decoder Artifact :=
  Fields.decoder
    (Artifact.mk <$> Fields.required "path" Decoder.text
      <*> Fields.required "permissions" FileMode.decode
      <*> Fields.required "source" ArtifactSource.decode)
    "Artifact" false

def toJson (artifact : Artifact) : Json :=
  Json.object
    [("path", .str artifact.path), ("permissions", artifact.permissions.toJson),
     ("source", artifact.source.toJson)]

end Artifact

namespace UnitDef

def decode : Decoder UnitDef :=
  Fields.decoder
    (UnitDef.mk <$> Fields.required "name" Decoder.text
      <*> Fields.required "enable" Decoder.boolean
      <*> Fields.required "content" Decoder.text)
    "UnitDef" false

def toJson (unit : UnitDef) : Json :=
  Json.object
    [("name", .str unit.name), ("enable", .bool unit.enable), ("content", .str unit.content)]

end UnitDef

namespace ArtifactSet

def decode : Decoder ArtifactSet :=
  Fields.decoder
    (ArtifactSet.mk <$> Fields.required "files" (Decoder.dictionary Artifact.decode)
      <*> Fields.required "units" (Decoder.list UnitDef.decode))
    "ArtifactSet" false

def toJson (set : ArtifactSet) : Json :=
  Json.object
    [("files", .obj (set.files.map fun (path, file) => (path, file.toJson))),
     ("units", .arr (set.units.map UnitDef.toJson))]

end ArtifactSet

end LogForwarding
