import LogForwarding.Api.Patch
import LogForwarding.Api.Resource
import LogForwarding.Api.StatusText
import LogForwarding.Schema.Decoder

/-!
What is asked of an API server, and what its answers mean.
-/

namespace LogForwarding

/-- A request to an API server. -/
inductive ApiRequest where
  | get (key : ObjectKey)
  | delete (key : ObjectKey)
  /-- Write an object as a whole, whoever has written it before. -/
  | apply (key : ObjectKey) (body : Json)
  | merge (key : ObjectKey) (change : Json)
  /-- Change what is reported of an object rather than what is wanted of it. -/
  | mergeStatus (key : ObjectKey) (change : Json)
  | patch (key : ObjectKey) (operations : List PatchOperation)
  | list (kind : ResourceKind) (ns : Option String)
  /-- Be told of the changes from now on. -/
  | watch (kind : ResourceKind) (ns : Option String)
deriving DecidableEq, Inhabited

namespace ApiRequest

def method : ApiRequest → String
  | .get _ | .list _ _ | .watch _ _ => "GET"
  | .delete _ => "DELETE"
  | .apply _ _ | .merge _ _ | .mergeStatus _ _ | .patch _ _ => "PATCH"

def path : ApiRequest → String
  | .get key | .delete key | .apply key _ | .merge key _ | .patch key _ => key.path
  | .mergeStatus key _ => key.path ++ "/status"
  | .list kind ns | .watch kind ns => kind.collection ns

end ApiRequest

/-- The answer of an API server. -/
structure ApiResponse where
  code : Nat
  body : Json
deriving DecidableEq, Inhabited

/-- What an API server says when it refuses a request. -/
structure Refusal where
  status : String
  message : String
  reason : String
  code : UInt16
deriving DecidableEq, Inhabited

/-- Why a request has no result. -/
inductive RequestError where
  | refused (refusal : Refusal)
  /-- An object is not found without a name. -/
  | unnamed
  /-- The answer is not the object that was asked for, as shows after so many bytes of it. -/
  | undecodable (mismatch : Mismatch) (extent : Nat)
deriving DecidableEq, Inhabited

namespace Refusal

def decode : Decoder Refusal :=
  Fields.decoder
    (Refusal.mk <$> Fields.required "status" Decoder.text
      <*> Fields.withDefault "message" Decoder.text ""
      <*> Fields.withDefault "reason" Decoder.text ""
      <*> Fields.required "code" Decoder.word16)
    "ErrorResponse" false

/-- The refusal that an answer holds.  An answer that is no refusal in form is told as it is. -/
def ofResponse (response : ApiResponse) : Refusal :=
  match decode response.body with
  | .ok refusal => refusal
  | .error _ =>
      ⟨Api.statusText response.code, Text.quoted response.body.print,
        "Failed to parse error data", UInt16.ofNat response.code⟩

def text (refusal : Refusal) : String :=
  "ApiError: " ++ refusal.message ++ ": " ++ refusal.reason ++ " (ErrorResponse \x7b status: "
    ++ Text.quoted refusal.status ++ ", message: " ++ Text.quoted refusal.message ++ ", reason: "
    ++ Text.quoted refusal.reason ++ ", code: " ++ toString refusal.code.toNat ++ " \x7d)"

end Refusal

namespace RequestError

def message : RequestError → String
  | .refused refusal => refusal.text
  | .unnamed =>
      "Failed to build request: failed to validate request: A non-empty name is required"
  | .undecodable mismatch extent =>
      "Error deserializing response: " ++ mismatch.message ++ " at line 1 column " ++
        toString extent

/-- Whether the server says that there is no such object, as a reader takes it. -/
def isAbsentToReader : RequestError → Bool
  | .refused refusal => refusal.reason = "NotFound"
  | _ => false

/-- Whether the server says that there is no such object, as a writer takes it. -/
def isAbsentToWriter : RequestError → Bool
  | .refused refusal => refusal.code = 404
  | _ => false

end RequestError

namespace ApiResponse

def isRefusal (response : ApiResponse) : Bool :=
  400 ≤ response.code ∧ response.code < 600

def result {α : Type} (response : ApiResponse) (decode : Decoder α) : Except RequestError α :=
  if response.isRefusal then .error (.refused (.ofResponse response))
  else
    (decode response.body).mapError fun mismatch =>
      .undecodable mismatch (mismatch.extent response.body)

end ApiResponse

end LogForwarding
