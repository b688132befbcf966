import LogForwarding.Schema.Decoder
import LogForwarding.Time.Timestamp

/-!
The metadata of the objects that an API server keeps, as far as it matters here.
-/

namespace LogForwarding

/-- Which object it is, and what has been asked of it. -/
structure ObjectMeta where
  name : Option String
  /-- The namespace; objects of the whole cluster have none. -/
  ns : Option String
  /-- Counts the changes of what is wanted of the object. -/
  generation : Option Int64
  annotations : Dictionary String
  /-- Who has to let go of the object before it can disappear. -/
  finalizers : List String
  /-- The object is marked for deletion. -/
  deleting : Bool
deriving DecidableEq, Inhabited

namespace ObjectMeta

/-- A point in time; it only counts whether there is one. -/
def timestamp : Decoder Unit
  | .str text => (Timestamp.read text).mapError (fun e => .refused e.message) |>.map fun _ => ()
  | found => .error (.wrongType found "an RFC 3339 formatted date and time string")

def fields : Fields ObjectMeta :=
  ObjectMeta.mk <$> Fields.optional "name" Decoder.text
    <*> Fields.optional "namespace" Decoder.text
    <*> Fields.optional "generation" Decoder.int64
    <*> ((·.getD []) <$> Fields.optional "annotations" (Decoder.dictionary Decoder.text))
    <*> ((·.getD []) <$> Fields.optional "finalizers" (Decoder.list Decoder.text))
    <*> ((·.isSome) <$> Fields.optional "deletionTimestamp" timestamp)

/-- Reads metadata; what else stands there is ignored. -/
def decode : Decoder ObjectMeta :=
  fields.objectDecoder "ObjectMeta"

def annotation? (metadata : ObjectMeta) (key : String) : Option String :=
  Dictionary.find? metadata.annotations key

end ObjectMeta

end LogForwarding
