import LogForwarding.Reconcile.Session

/-!
An API server that is held in memory together with its clock.  It keeps what is written, answers as
it is told to, and counts the requests, so that a controller can be told to stop at any of them.
-/

namespace LogForwarding.Simulation

/-- An answer that a server gives in the place of its own. -/
structure Fault where
  method : String
  path : String
  response : ApiResponse
  /-- How often it is given; without a number, always. -/
  times : Option Nat
deriving DecidableEq, Inhabited

/-- An API server with its clock. -/
structure Server where
  /-- The objects by path. -/
  objects : Dictionary Json
  /-- What is read at a path, one after the other; the last is read ever after. -/
  scripted : Dictionary (List (Option Json))
  faults : List Fault
  /-- The controller is told to stop when this many requests have been made before. -/
  stopAtRequest : Option Nat
  /-- The controller is told to stop at this time. -/
  stopAtTime : Option Nat
  /-- The controller was told to stop. -/
  stopped : Bool
  /-- The seconds that have passed. -/
  clock : Nat
  /-- What the clock shows. -/
  time : String
  /-- The requests with their times, the latest first. -/
  log : List (Nat × ApiRequest)
deriving Inhabited

def refusal (code : Nat) (reason message : String) : ApiResponse :=
  ⟨code, Json.object
    [("status", .str "Failure"), ("message", .str message), ("reason", .str reason),
     ("code", .int code)]⟩

/-- The answer that there is no object at a path. -/
def notFound (path : String) : ApiResponse :=
  refusal 404 "NotFound" (path ++ " not found")

/-- The answer that operations cannot be carried out. -/
def unprocessable : ApiResponse :=
  refusal 422 "Invalid" "the server rejected our request"

/-- The object at a path as an answer. -/
def found (path : String) (object : Option Json) : ApiResponse :=
  object.elim (notFound path) fun body => ⟨200, body⟩

/-- The first fault that concerns a request, and the faults that are left behind it. -/
def takeFault (request : ApiRequest) : List Fault → Option (ApiResponse × List Fault)
  | [] => none
  | fault :: rest =>
      if fault.method = request.method ∧ fault.path = request.path ∧ fault.times ≠ some 0 then
        some (fault.response, { fault with times := fault.times.map (· - 1) } :: rest)
      else (takeFault request rest).map fun (response, others) => (response, fault :: others)

namespace Server

/-- The server with an object at a path. -/
def store (server : Server) (path : String) (object : Json) : Server :=
  { server with objects := Dictionary.insert path object server.objects }

/-- Changes the object at a path, if it is there and can be changed. -/
def changed (server : Server) (path : String) (change : Json → Option Json) :
    ApiResponse × Server :=
  match Dictionary.find? server.objects path with
  | none => (notFound path, server)
  | some object =>
      match change object with
      | none => (unprocessable, server)
      | some result => (⟨200, result⟩, server.store path result)

/-- Whether an object at a path belongs to a kind and a namespace, or to any namespace. -/
def isListed (kind : ResourceKind) (ns : Option String) (path : String) : Bool :=
  let within (collection : String) : Bool :=
    (collection ++ "/").toList.isPrefixOf path.toList
  match ns with
  | some ns => within (kind.collection (some ns))
  | none =>
      match (path.splitOn "/").reverse with
      | _ :: plural :: _ :: "namespaces" :: _ =>
          plural = kind.plural ∧ within (kind.root ++ "namespaces")
      | _ => within (kind.collection none)

def respond (server : Server) : ApiRequest → ApiResponse × Server
  | .get key =>
      match Dictionary.find? server.scripted key.path with
      | some (next :: rest) =>
          let left := if rest = [] then [next] else rest
          (found key.path next,
            { server with scripted := Dictionary.insert key.path left server.scripted })
      | _ => (found key.path (Dictionary.find? server.objects key.path), server)
  | .delete key =>
      match Dictionary.find? server.objects key.path with
      | none => (notFound key.path, server)
      | some object =>
          (⟨200, object⟩, { server with objects := Dictionary.erase key.path server.objects })
  | .apply key body =>
      let status := (Dictionary.find? server.objects key.path).bind fun old => old.get? "status"
      let object := status.elim body fun status => body.set "status" status
      (⟨200, object⟩, server.store key.path object)
  | .merge key change | .mergeStatus key change =>
      server.changed key.path fun object => some (Json.merge change object)
  | .patch key operations => server.changed key.path (Json.patchAll operations)
  | .list kind ns =>
      let items := server.objects.filterMap fun (path, object) =>
        if isListed kind ns path then some object else none
      (⟨200, Json.object [("items", .arr items)]⟩, server)
  | .watch _ _ => (⟨200, .null⟩, server)

/-- Serves a request.  A controller that is told to stop now is told before the answer. -/
def serve (server : Server) (request : ApiRequest) : ApiResponse × Server :=
  let stopped := server.stopped || server.stopAtRequest = some server.log.length
  let server := { server with stopped := stopped, log := (server.clock, request) :: server.log }
  match takeFault request server.faults with
  | some (response, faults) => (response, { server with faults := faults })
  | none => server.respond request

/-- Lets time pass until it is over or the controller is told to stop. -/
def wait (server : Server) (seconds : Nat) : Bool × Server :=
  if server.stopped then (true, server)
  else
    let target := server.clock + seconds
    match server.stopAtTime with
    | some stop =>
        if stop ≤ target then (true, { server with clock := stop, stopped := true })
        else (false, { server with clock := target })
    | none => (false, { server with clock := target })

def answer : (question : ApiQuestion) → Server → question.Answer × Server
  | .request request, server => server.serve request
  | .attempt request, server =>
      if server.stopped then (none, server)
      else
        let (response, server) := server.serve request
        (some response, server)
  | .pause seconds, server => server.wait seconds
  | .now, server => (server.time, server)

end Server

end LogForwarding.Simulation
