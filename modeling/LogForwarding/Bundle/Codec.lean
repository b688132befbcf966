import LogForwarding.Bundle.Basic

/-!
Bundles as JSON.  Unknown fields are ignored; absent options and an empty encoding are left out.
-/

namespace LogForwarding

open Fields

namespace InlineContent

def decode : Decoder InlineContent :=
  Fields.decoder
    (InlineContent.mk <$> withDefault "encoding" Decoder.text ""
      <*> required "data" Decoder.text)
    "InlineContent" false

def toJson (content : InlineContent) : Json :=
  Json.ofFields
    [("encoding", if content.encoding = "" then none else some (.str content.encoding)),
     ("data", some (.str content.data))]

end InlineContent

namespace SecretKeyRef

def decode : Decoder SecretKeyRef :=
  Fields.decoder
    (SecretKeyRef.mk <$> required "name" Decoder.text <*> required "dataKey" Decoder.text)
    "SecretKeyRef" false

def toJson (ref : SecretKeyRef) : Json :=
  Json.object [("name", .str ref.name), ("dataKey", .str ref.key)]

end SecretKeyRef

namespace BundleContent

def decode : Decoder BundleContent :=
  Fields.decoder
    (BundleContent.mk <$> optionalMember "inline" InlineContent.decode
      <*> optionalMember "secretRef" SecretKeyRef.decode)
    "BundleFileContent" false

def toJson (content : BundleContent) : Json :=
  Json.ofFields
    [("inline", content.inline.map InlineContent.toJson),
     ("secretRef", content.secret.map SecretKeyRef.toJson)]

end BundleContent

namespace BundleFile

def decode : Decoder BundleFile :=
  Fields.decoder
    (BundleFile.mk <$> required "path" Decoder.text
      <*> required "permissions" Decoder.word32
      <*> required "content" BundleContent.decode)
    "BundleFile" false

def toJson (file : BundleFile) : Json :=
  Json.object
    [("path", .str file.path), ("permissions", .int file.permissions.toNat),
     ("content", file.content.toJson)]

end BundleFile

namespace BundleUnit

def decode : Decoder BundleUnit :=
  Fields.decoder
    (BundleUnit.mk <$> required "name" Decoder.text
      <*> required "enable" Decoder.boolean
      <*> optionalMember "content" Decoder.text)
    "BundleUnit" false

def toJson (unit : BundleUnit) : Json :=
  Json.ofFields
    [("name", some (.str unit.name)), ("enable", some (.bool unit.enable)),
     ("content", unit.content.map .str)]

end BundleUnit

namespace BundlePayload

def fields : Fields BundlePayload :=
  BundlePayload.mk <$> withDefault "files" (Decoder.list BundleFile.decode) []
    <*> withDefault "units" (Decoder.list BundleUnit.decode) []
    <*> withDefault "manifests" (Decoder.list Decoder.any) []

def members (payload : BundlePayload) : List (String × Json) :=
  [("files", .arr (payload.files.map BundleFile.toJson)),
   ("units", .arr (payload.units.map BundleUnit.toJson)),
   ("manifests", .arr payload.manifests)]

end BundlePayload

namespace BundleSpec

def decode : Decoder BundleSpec :=
  Fields.decoder
    (BundleSpec.mk <$> BundlePayload.fields
      <*> withDefault "keepObjects" Decoder.boolean false)
    "NodeBundleSpec" false

def toJson (spec : BundleSpec) : Json :=
  Json.object (spec.payload.members ++ [("keepObjects", .bool spec.keepObjects)])

end BundleSpec

namespace BundleCondition

def decode : Decoder BundleCondition :=
  Fields.decoder
    (BundleCondition.mk <$> required "type" Decoder.text
      <*> required "status" Decoder.text
      <*> optionalMember "reason" Decoder.text
      <*> optionalMember "message" Decoder.text
      <*> optionalMember "lastTransitionTime" Decoder.text)
    "BundleCondition" false

def toJson (condition : BundleCondition) : Json :=
  Json.ofFields
    [("type", some (.str condition.type)), ("status", some (.str condition.status)),
     ("reason", condition.reason.map .str), ("message", condition.message.map .str),
     ("lastTransitionTime", condition.lastTransition.map .str)]

end BundleCondition

namespace BundleStatus

def decode : Decoder BundleStatus :=
  Fields.decoder
    (BundleStatus.mk <$> optionalMember "observedGeneration" Decoder.int64
      <*> withDefault "conditions" (Decoder.list BundleCondition.decode) [])
    "NodeBundleStatus" false

def toJson (status : BundleStatus) : Json :=
  Json.ofFields
    [("observedGeneration", status.observedGeneration.map fun n => .int n.toInt),
     ("conditions", some (.arr (status.conditions.map BundleCondition.toJson)))]

end BundleStatus

namespace NodeBundle

def decode : Decoder NodeBundle :=
  Fields.decoder
    (NodeBundle.mk <$> required "metadata" ObjectMeta.decode
      <*> required "spec" BundleSpec.decode
      <*> optionalMember "status" BundleStatus.decode)
    "NodeBundle" false

end NodeBundle

end LogForwarding
