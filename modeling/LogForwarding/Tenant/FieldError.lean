import LogForwarding.Schema.Decoder

/-!
Faults of a tenant document, each with the path of the field it concerns.
-/

namespace LogForwarding

/-- The kinds of faults. -/
inductive FaultKind where
  | required
  | invalid
  | notSupported
  | notFound
  | forbidden
deriving DecidableEq, Repr, Inhabited

namespace FaultKind

def named : List (String × FaultKind) :=
  [("Required", .required), ("Invalid", .invalid), ("NotSupported", .notSupported),
   ("NotFound", .notFound), ("Forbidden", .forbidden)]

def name : FaultKind → String
  | .required => "Required"
  | .invalid => "Invalid"
  | .notSupported => "NotSupported"
  | .notFound => "NotFound"
  | .forbidden => "Forbidden"

/-- What a kind is called in a message. -/
def title : FaultKind → String
  | .required => "Required value"
  | .invalid => "Invalid value"
  | .notSupported => "Unsupported value"
  | .notFound => "Not found"
  | .forbidden => "Forbidden"

end FaultKind

/-- A fault of a document at a field path such as `tls.permittedPeer[1]`. -/
structure FieldError where
  kind : FaultKind
  field : String
  detail : String
  /-- The fault lies with a Secret or ConfigMap that the document refers to. -/
  reference : Bool
deriving DecidableEq, Repr, Inhabited

namespace FieldError

def required (field detail : String) : FieldError := ⟨.required, field, detail, false⟩

def invalid (field detail : String) : FieldError := ⟨.invalid, field, detail, false⟩

def notFound (field detail : String) : FieldError := ⟨.notFound, field, detail, false⟩

/-- Something that must not be as it is. -/
def forbidden (field detail : String) : FieldError := ⟨.forbidden, field, detail, false⟩

/-- A value that is none of the allowed ones. -/
def notSupported (field value : String) (allowed : List String) : FieldError :=
  let quote (text : String) : String := "\"" ++ text ++ "\""
  ⟨.notSupported, field,
    quote value ++ ": supported values: " ++ ", ".intercalate (allowed.map quote), false⟩

/-- The fault as one of a referenced object. -/
def onReference (error : FieldError) : FieldError :=
  ⟨error.kind, error.field, error.detail, true⟩

def message (error : FieldError) : String :=
  error.field ++ ": " ++ error.kind.title ++ ": " ++ error.detail

def decode : Decoder FieldError :=
  Fields.decoder
    (FieldError.mk <$> Fields.required "kind" (Decoder.variant FaultKind.named)
      <*> Fields.required "field" Decoder.text
      <*> Fields.required "detail" Decoder.text
      <*> Fields.withDefault "reference" Decoder.boolean false)
    "FieldError" false

def toJson (error : FieldError) : Json :=
  Json.object
    [("kind", .str error.kind.name), ("field", .str error.field), ("detail", .str error.detail),
     ("reference", .bool error.reference)]

end FieldError

/-- The faults of a document in the order of its fields. -/
abbrev FieldErrors := List FieldError

namespace FieldErrors

def message (errors : FieldErrors) : String :=
  "[" ++ ", ".intercalate (errors.map FieldError.message) ++ "]"

/-- There are faults, and all of them lie with referenced objects. -/
def onlyReferences (errors : FieldErrors) : Bool :=
  errors ≠ [] ∧ List.all errors FieldError.reference

def firstField (errors : FieldErrors) : Option String :=
  (List.head? errors).map FieldError.field

end FieldErrors

end LogForwarding
