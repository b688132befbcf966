import LogForwarding.Api.Resource
import LogForwarding.Bytes.Base64
import LogForwarding.Cluster.Context
import LogForwarding.Cluster.Metadata

/-!
Secrets and ConfigMaps as they are kept by the API server.
-/

namespace LogForwarding

/-- Bytes, written as Base64 text.  Only that they are well-formed counts. -/
def encodedBytes : Decoder Unit
  | .null => .ok ()
  | .str text =>
      if (Base64.decode? text).isSome then .ok ()
      else .error (.refused (Base64.Fault.ofText text).message)
  | found => .error (.wrongType found "a base64-encoded string")

/-- The keys of an object whose values are of no interest. -/
def keysOf {α : Type} (item : Decoder α) (name : String) : Fields (List String) :=
  (fun found => (found.map Dictionary.keys).getD [])
    <$> Fields.optional name (Decoder.dictionary item)

/-- Whether an object says that it never changes. -/
def immutableField : Fields Bool :=
  (·.getD false) <$> Fields.optional "immutable" Decoder.boolean

/-- The fields by which an object says what it is.  They are only checked, and may be missing. -/
def headerFields (kind : ResourceKind) : Fields Unit :=
  (fun _ _ _ => ()) <$> Fields.withDefault "apiVersion" (Decoder.exactly kind.apiVersion) ()
    <*> Fields.withDefault "kind" (Decoder.exactly kind.kind) ()
    <*> Fields.optional "metadata" ObjectMeta.decode

/-- Reads what is known of a Secret of some name.  Its keys are those with bytes and those with
text; the values are not kept. -/
def SecretSnapshot.decode (name : String) : Decoder SecretSnapshot :=
  Fields.objectDecoder
    ((fun _ immutable keys texts => ⟨name, immutable, Dictionary.sortedSet (keys ++ texts)⟩)
      <$> headerFields .secret <*> immutableField <*> keysOf encodedBytes "data"
      <*> keysOf Decoder.text "stringData")
    "Secret"

/-- Reads what is known of a ConfigMap of some name. -/
def ConfigMapSnapshot.decode (name : String) : Decoder ConfigMapSnapshot :=
  Fields.objectDecoder
    ((fun _ immutable data binary => ⟨name, immutable, data.getD [], binary⟩)
      <$> headerFields .configMap <*> immutableField
      <*> Fields.optional "data" (Decoder.dictionary Decoder.text)
      <*> keysOf encodedBytes "binaryData")
    "ConfigMap"

end LogForwarding
