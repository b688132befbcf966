import LogForwarding.Bytes.Base64
import LogForwarding.Schema.Decoder

/-!
Where the content of a node file comes from, and who may read the file.
-/

namespace LogForwarding

/-- The permissions of node files. -/
inductive FileMode where
  /-- 0600, for secrets. -/
  | secret
  /-- 0644, for configuration. -/
  | readable
  /-- 0744, for programs. -/
  | executable
deriving DecidableEq, Repr, Inhabited

namespace FileMode

def bits : FileMode → UInt32
  | .secret => 0o600
  | .readable => 0o644
  | .executable => 0o744

def ofBits? (bits : UInt32) : Option FileMode :=
  if bits = 0o600 then some .secret
  else if bits = 0o644 then some .readable
  else if bits = 0o744 then some .executable
  else none

def octal (n : UInt32) : String :=
  String.ofList (Nat.toDigits 8 n.toNat)

/-- What is told of bits that are no permissions of a node file. -/
def refusal (bits : UInt32) : String :=
  "unsupported file mode " ++ octal bits

def text (mode : FileMode) : String :=
  "0" ++ octal mode.bits

def decode : Decoder FileMode := fun value => do
  let n ← Decoder.word32 value
  match ofBits? n with
  | some mode => return mode
  | none => throw (.refused (refusal n))

def toJson (mode : FileMode) : Json := .int mode.bits.toNat

theorem ofBits?_bits (mode : FileMode) : ofBits? mode.bits = some mode := by
  cases mode <;> rfl

end FileMode

/-- How content is written. -/
inductive Encoding where
  | plain
  | base64
deriving DecidableEq, Repr, Inhabited

namespace Encoding

def named : List (String × Encoding) := [("plain", .plain), ("base64", .base64)]

def name : Encoding → String
  | .plain => "plain"
  | .base64 => "base64"

end Encoding

/-- Where the content of a file comes from. -/
inductive ArtifactSource where
  | inline (encoding : Encoding) (data : String)
  /-- A key of a Secret that is looked up on the node. -/
  | secretKey (secretName key : String)
deriving DecidableEq, Repr, Inhabited

namespace ArtifactSource

def plain (data : String) : ArtifactSource := .inline .plain data

def base64 (bytes : Bytes) : ArtifactSource := .inline .base64 (Base64.encode bytes)

/-- The bytes of inline content, if it is well-formed. -/
def bytes? : ArtifactSource → Option Bytes
  | .inline .plain data => some (Bytes.ofText data)
  | .inline .base64 data => Base64.decode? data
  | .secretKey _ _ => none

private def inlineFields : Fields ArtifactSource :=
  ArtifactSource.inline <$> Fields.required "encoding" (Decoder.variant Encoding.named)
    <*> Fields.required "data" Decoder.text

/-- The fields of a key of a Secret. -/
private def secretKeyFields : Fields ArtifactSource :=
  ArtifactSource.secretKey <$> Fields.required "secretName" Decoder.text
    <*> Fields.required "key" Decoder.text

/-- The name of the fields that a tag announces. -/
private def tagged (tag : Json) : Except Mismatch (String × Fields ArtifactSource) :=
  match tag with
  | .str "inline" => .ok ("Inline", inlineFields)
  | .str "secretKey" => .ok ("SecretKey", secretKeyFields)
  | .str other => .error (.unknownVariant other ["inline", "secretKey"])
  | found => .error (.wrongType found "variant identifier")

/-- Reads a source; its `type` says which one it is. -/
def decode : Decoder ArtifactSource
  | .obj members => do
      match Dictionary.find? members "type" with
      | none => throw (.missingField "type")
      | some tag =>
          let (_, fields) ← tagged tag
          fields.decoder "" false (.obj (Dictionary.erase "type" members))
  | .arr [] => .error (.missingField "type")
  | .arr (tag :: items) => do
      let (name, fields) ← tagged tag
      let count := fields.names.length
      let (source, rest) ← fields.ofItems
        ("struct variant ArtifactSource::" ++ name ++ " with " ++ toString count ++ " elements") 0
        items
      if rest = [] then return source
      else throw (.wrongLength items.length (toString count ++ " elements in sequence"))
  | found => .error (.wrongType found "internally tagged enum ArtifactSource")

def toJson : ArtifactSource → Json
  | .inline encoding data =>
      Json.object [("type", .str "inline"), ("encoding", .str encoding.name), ("data", .str data)]
  | .secretKey secretName key =>
      Json.object [("type", .str "secretKey"), ("secretName", .str secretName), ("key", .str key)]

end ArtifactSource

end LogForwarding
