import LogForwarding.Proofs.Lockstep
import LogForwarding.Proofs.Requests
import LogForwarding.Simulation.Server
import Mathlib.Logic.Function.Basic

/-!
API servers that keep their objects apart: what becomes of an object, and what is answered to a
request about it, is a matter of that object alone.  What happens to a look while it is under way,
such as the failure of a request or the end of the controller, is told moment by moment.
-/

namespace LogForwarding

/-- An API server.  What it knows of an object, such as its versions, is kept in one cell for each
key. -/
structure ApiServer (Cell : Type) where
  /-- The answer to a request about an object, and what becomes of its cell. -/
  respond : ApiRequest → Cell → ApiResponse × Cell
  /-- To read an object does not change it. -/
  respond_get : ∀ key cell, (respond (.get key) cell).2 = cell
  /-- The answer to a request about many objects. -/
  survey : ApiRequest → (ObjectKey → Cell) → ApiResponse

/-- What happens to a look at a moment. -/
structure Instant where
  /-- The controller was told to stop. -/
  stopped : Bool
  /-- What the clock shows. -/
  time : String
  /-- An answer in the place of the one that the server would give. -/
  fault : Option ApiResponse
  /-- A request is carried out although it is not answered by the server. -/
  isCarriedOut : Bool
deriving Inhabited

/-- A moment at which nothing happens. -/
def Instant.calm : Instant := ⟨false, "", none, false⟩

/-- Two answers to a question are alike as far as the answers to its request are. -/
def ApiQuestion.Alike (alike : ApiRequest → ApiResponse → ApiResponse → Prop) :
    (question : ApiQuestion) → question.Answer → question.Answer → Prop
  | .request made, response, other => alike made response other
  | .attempt made, answer, other =>
      answer = other ∨ ∃ response response' : ApiResponse,
        answer = some response ∧ other = some response' ∧ alike made response response'
  | .pause _, stopped, other => stopped = other
  | .now, time, other => time = other

theorem ApiQuestion.Alike.eq {alike : ApiRequest → ApiResponse → ApiResponse → Prop}
    {question : ApiQuestion} {answer other : question.Answer}
    (halike : question.Alike alike answer other)
    (heq : ∀ request, question.request? = some request → ∀ response response',
      alike request response response' → response = response') : answer = other := by
  cases question with
  | pause seconds => exact halike
  | now => exact halike
  | request made => exact heq made rfl _ _ halike
  | attempt made =>
      rcases halike with hsame | ⟨response, response', rfl, rfl, halike⟩
      · exact hsame
      · exact congrArg some (heq made rfl _ _ halike)

namespace ApiServer

variable {Cell : Type} (server : ApiServer Cell)

/-- The answer to a request, and what becomes of all cells. -/
def serve (request : ApiRequest) (cells : ObjectKey → Cell) : ApiResponse × (ObjectKey → Cell) :=
  match request.key? with
  | none => (server.survey request cells, cells)
  | some key =>
      let served := server.respond request (cells key)
      (served.1, Function.update cells key served.2)

/-- The answer to a question at a moment, and what becomes of all cells. -/
def answer (instant : Instant) :
    (question : ApiQuestion) → (ObjectKey → Cell) → question.Answer × (ObjectKey → Cell)
  | .request made, cells =>
      let served := server.serve made cells
      (instant.fault.getD served.1,
        if instant.fault.isNone || instant.isCarriedOut then served.2 else cells)
  | .attempt made, cells =>
      let served := server.serve made cells
      if instant.stopped then (none, if instant.isCarriedOut then served.2 else cells)
      else (some (instant.fault.getD served.1),
        if instant.fault.isNone || instant.isCarriedOut then served.2 else cells)
  | .pause _, cells => (instant.stopped, cells)
  | .now, cells => (instant.time, cells)

/-- The same for a look to which something else happens at each moment.  Its moments are counted. -/
def answerTimed (instants : Nat → Instant) (question : ApiQuestion)
    (state : Nat × (ObjectKey → Cell)) : question.Answer × (Nat × (ObjectKey → Cell)) :=
  let answered := server.answer (instants state.1) question state.2
  (answered.1, state.1 + 1, answered.2)

variable {server}

theorem serve_of_key? {request : ApiRequest} {key : ObjectKey} (hkey : request.key? = some key)
    (cells : ObjectKey → Cell) :
    server.serve request cells = ((server.respond request (cells key)).1,
      Function.update cells key (server.respond request (cells key)).2) := by
  rw [serve, hkey]

/-- A request leaves what it is not about as it is. -/
theorem serve_other {request : ApiRequest} {key : ObjectKey} (hother : request.key? ≠ some key)
    (cells : ObjectKey → Cell) : (server.serve request cells).2 key = cells key := by
  cases hkey : request.key? with
  | none => rw [serve, hkey]
  | some other =>
      have hne : key ≠ other := by
        rintro rfl
        exact hother hkey
      rw [serve_of_key? hkey]
      exact Function.update_of_ne hne _ _

/-- A question leaves the cells as they are, or makes of them what its request does. -/
theorem answer_cells (instant : Instant) (question : ApiQuestion) (cells : ObjectKey → Cell) :
    (server.answer instant question cells).2 = cells ∨
      ∃ request, question.request? = some request ∧
        (server.answer instant question cells).2 = (server.serve request cells).2 := by
  cases question with
  | pause seconds => exact Or.inl rfl
  | now => exact Or.inl rfl
  | request made =>
      rw [answer]
      split
      · exact Or.inr ⟨made, rfl, rfl⟩
      · exact Or.inl rfl
  | attempt made =>
      rw [answer]
      split
      · dsimp only
        split
        · exact Or.inr ⟨made, rfl, rfl⟩
        · exact Or.inl rfl
      · dsimp only
        split
        · exact Or.inr ⟨made, rfl, rfl⟩
        · exact Or.inl rfl

/-- What a server makes of a question in two states is alike when it is so for the request. -/
theorem answer_alike {alike : ApiRequest → ApiResponse → ApiResponse → Prop}
    {agree : (ObjectKey → Cell) → (ObjectKey → Cell) → Prop} {question : ApiQuestion}
    {cells others : ObjectKey → Cell} (hrefl : ∀ request response, alike request response response)
    (hagree : agree cells others)
    (hserve : ∀ request, question.request? = some request →
      alike request (server.serve request cells).1 (server.serve request others).1 ∧
        agree (server.serve request cells).2 (server.serve request others).2) (instant : Instant) :
    question.Alike alike (server.answer instant question cells).1
      (server.answer instant question others).1 ∧
    agree (server.answer instant question cells).2 (server.answer instant question others).2 := by
  have hleft {condition : Bool} {left right : ObjectKey → Cell} (hcarried : agree left right) :
      agree (if condition then left else cells) (if condition then right else others) := by
    split
    · exact hcarried
    · exact hagree
  have hfault {request : ApiRequest} {response other : ApiResponse}
      (halike : alike request response other) :
      alike request (instant.fault.getD response) (instant.fault.getD other) := by
    cases instant.fault with
    | none => exact halike
    | some fault => exact hrefl request fault
  cases question with
  | pause seconds => exact ⟨rfl, hagree⟩
  | now => exact ⟨rfl, hagree⟩
  | request made =>
      obtain ⟨halike, hcells⟩ := hserve made rfl
      exact ⟨hfault halike, hleft hcells⟩
  | attempt made =>
      obtain ⟨halike, hcells⟩ := hserve made rfl
      rw [answer, answer]
      by_cases hstopped : instant.stopped
      · rw [if_pos hstopped, if_pos hstopped]
        exact ⟨Or.inl rfl, hleft hcells⟩
      · rw [if_neg hstopped, if_neg hstopped]
        exact ⟨Or.inr ⟨_, _, rfl, rfl, hfault halike⟩, hleft hcells⟩

/-- A dialogue that is blind to how two states differ goes the same way in both, when no request that
it makes tells them apart. -/
theorem run_alike {α : Type} {alike : ApiRequest → ApiResponse → ApiResponse → Prop}
    {agree : (ObjectKey → Cell) → (ObjectKey → Cell) → Prop} {allowed : ApiRequest → Prop}
    {session : Session α} (hblind : session.Blind (ApiQuestion.Alike alike))
    (hasks : session.Asks fun question =>
      ∀ request, question.request? = some request → allowed request)
    (hrefl : ∀ request response, alike request response response)
    (hserve : ∀ request, allowed request → ∀ cells others, agree cells others →
      alike request (server.serve request cells).1 (server.serve request others).1 ∧
        agree (server.serve request cells).2 (server.serve request others).2)
    (instants : Nat → Instant) (moment : Nat) {cells others : ObjectKey → Cell}
    (hagree : agree cells others) :
    let answer := server.answerTimed instants
    (session.run answer (moment, cells)).1 = (session.run answer (moment, others)).1 ∧
    session.questionsWith answer (moment, cells) = session.questionsWith answer (moment, others) ∧
    agree (session.run answer (moment, cells)).2.2 (session.run answer (moment, others)).2.2 := by
  intro answer
  let together (state other : Nat × (ObjectKey → Cell)) : Prop :=
    state.1 = other.1 ∧ agree state.2 other.2
  have hstep (question : ApiQuestion)
      (hallowed : ∀ request, question.request? = some request → allowed request)
      (state other : Nat × (ObjectKey → Cell)) (htogether : together state other) :
      question.Alike alike (answer question state).1 (answer question other).1 ∧
        together (answer question state).2 (answer question other).2 := by
    obtain ⟨moment, cells⟩ := state
    obtain ⟨_, others⟩ := other
    obtain ⟨rfl, hagree⟩ := htogether
    obtain ⟨halike, hleft⟩ := answer_alike hrefl hagree
      (fun request hrequest => hserve request (hallowed request hrequest) cells others hagree)
      (instants moment)
    exact ⟨halike, rfl, hleft⟩
  have hstart : together (moment, cells) (moment, others) := ⟨rfl, hagree⟩
  obtain ⟨hresult, hquestions, -, hleft⟩ := hblind.run_eq hasks hstep hstart
  exact ⟨hresult, hquestions, hleft⟩

end ApiServer

section Plain

/-- What comes of a change of an object that is there and can be changed. -/
def changedObject (key : ObjectKey) (found : Option Json) (change : Json → Option Json) :
    ApiResponse × Option Json :=
  match found with
  | none => (Simulation.notFound key.path, none)
  | some object =>
      match change object with
      | none => (Simulation.unprocessable, some object)
      | some result => (⟨200, result⟩, some result)

/-- The answer to a request about an object that is kept as it was written. -/
def ApiRequest.respond : ApiRequest → Option Json → ApiResponse × Option Json
  | .get key, found => (Simulation.found key.path found, found)
  | .delete key, none => (Simulation.notFound key.path, none)
  | .delete _, some object => (⟨200, object⟩, none)
  | .apply _ body, found =>
      let object := (found.bind fun old => old.get? "status").elim body fun status =>
        body.set "status" status
      (⟨200, object⟩, some object)
  | .merge key change, found | .mergeStatus key change, found =>
      changedObject key found fun object => some (Json.merge change object)
  | .patch key operations, found => changedObject key found (Json.patchAll operations)
  | .list _ _, found | .watch _ _, found => (⟨200, .null⟩, found)

/-- The API server that keeps objects as they are written. -/
def ApiServer.plain : ApiServer (Option Json) where
  respond := ApiRequest.respond
  respond_get _ _ := rfl
  survey _ _ := ⟨200, .null⟩

/-- What comes of a change in memory is what comes of it here. -/
theorem Simulation.Server.changed_eq (server : Simulation.Server) (key : ObjectKey)
    (change : Json → Option Json) :
    (server.changed key.path change).1 =
        (changedObject key (Dictionary.find? server.objects key.path) change).1 ∧
      ∀ path, Dictionary.find? (server.changed key.path change).2.objects path =
        if path = key.path then
          (changedObject key (Dictionary.find? server.objects key.path) change).2
        else Dictionary.find? server.objects path := by
  rw [changed]
  cases hfound : Dictionary.find? server.objects key.path with
  | none => grind [changedObject]
  | some object =>
      cases hchange : change object with
      | none => grind [changedObject]
      | some result => grind [changedObject, store, Dictionary.find?_insert]

/-- Objects that are held in memory by their paths are kept in this way. -/
theorem Simulation.Server.respond_eq (server : Simulation.Server) (hscript : server.scripted = [])
    {request : ApiRequest} {key : ObjectKey} (hkey : request.key? = some key) :
    (server.respond request).1 =
        (request.respond (Dictionary.find? server.objects key.path)).1 ∧
      ∀ path, Dictionary.find? (server.respond request).2.objects path =
        if path = key.path then (request.respond (Dictionary.find? server.objects key.path)).2
        else Dictionary.find? server.objects path := by
  cases request with
  | merge other change =>
      cases hkey
      exact changed_eq server key _
  | mergeStatus other change =>
      cases hkey
      exact changed_eq server key _
  | patch other operations =>
      cases hkey
      exact changed_eq server key _
  | get other =>
      cases hkey
      rw [respond, hscript]
      refine ⟨rfl, fun path => ?_⟩
      by_cases hpath : path = key.path
      · rw [if_pos hpath, hpath]
        rfl
      · rw [if_neg hpath]
        rfl
  | delete other =>
      cases hkey
      rw [respond]
      cases hfound : Dictionary.find? server.objects key.path with
      | none => grind [ApiRequest.respond]
      | some object => grind [ApiRequest.respond, Dictionary.find?_erase]
  | apply other body =>
      cases hkey
      rw [respond]
      refine ⟨rfl, fun path => ?_⟩
      grind [ApiRequest.respond, store, Dictionary.find?_insert]
  | list kind ns => cases hkey
  | watch kind ns => cases hkey

end Plain

end LogForwarding
