import LogForwarding.Api.Request
import LogForwarding.Reconcile.Capability

/-!
Dialogues with an API server and a clock.
-/

namespace LogForwarding

/-- What is asked of an API server and a clock. -/
inductive ApiQuestion where
  /-- Make a request, come what may. -/
  | request (request : ApiRequest)
  /-- Make a request, unless the controller is told to stop first. -/
  | attempt (request : ApiRequest)
  /-- Wait, unless the controller is told to stop first. -/
  | pause (seconds : Nat)
  /-- What time is it? -/
  | now
deriving DecidableEq, Inhabited

/-- What an API server and a clock answer.  There is no answer to an attempt when the controller was
told to stop, and a pause tells whether it was. -/
def ApiQuestion.Answer : ApiQuestion → Type
  | .request _ => ApiResponse
  | .attempt _ => Option ApiResponse
  | .pause _ => Bool
  | .now => String

/-- A dialogue with an API server and a clock. -/
abbrev Session := Dialogue ApiQuestion ApiQuestion.Answer

namespace Session

def request {α : Type} (request : ApiRequest) (decode : Decoder α) :
    Session (Except RequestError α) :=
  .ask (.request request) fun (response : ApiResponse) => .done (response.result decode)

/-- Makes a request, unless the controller is told to stop first. -/
def attempt {α : Type} (request : ApiRequest) (decode : Decoder α) :
    Session (Reply RequestError α) :=
  .ask (.attempt request) fun (response : Option ApiResponse) =>
    .done (response.elim .cancelled fun answer => .ofExcept (answer.result decode))

/-- Waits; tells whether the controller was told to stop. -/
def pause (seconds : Nat) : Session Bool :=
  .query (ApiQuestion.pause seconds)

def now : Session String :=
  .query ApiQuestion.now

/-- Reads an object that may be absent.  An object without a name cannot be asked for. -/
def read {α : Type} (key : ObjectKey) (decode : Decoder α) :
    Session (Reply RequestError (Option α)) :=
  if key.name = "" then .done (.failed .unnamed)
  else do
    match ← attempt (.get key) decode with
    | .ok found => return .ok (some found)
    | .failed error => return if error.isAbsentToReader then .ok none else .failed error
    | .cancelled => return .cancelled

/-- Writes to an object, or finds with no harm that it is absent. -/
def write {α : Type} (request : ApiRequest) (decode : Decoder α) :
    Session (Reply RequestError Unit) := do
  match ← attempt request decode with
  | .ok _ => return .ok ()
  | .failed error => return if error.isAbsentToWriter then .ok () else .failed error
  | .cancelled => return .cancelled

end Session

end LogForwarding
