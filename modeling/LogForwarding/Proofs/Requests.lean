import LogForwarding.Proofs.Conduct
import Mathlib.Data.List.Forall2

/-!
What the requests of a call show to have happened when the call succeeds, and which requests a call
can make at all.
-/

namespace LogForwarding

variable {α : Type}

namespace Reply

variable {ε ε' β : Type}

theorem mapError_eq_ok {f : ε → ε'} {reply : Reply ε α} {result : α} :
    reply.mapError f = .ok result ↔ reply = .ok result := by
  cases reply <;> simp [mapError]

theorem map_eq_ok {f : α → β} {reply : Reply ε α} {result : β} :
    reply.map f = .ok result ↔ ∃ value, reply = .ok value ∧ f value = result := by
  cases reply <;> simp [map]

theorem ofExcept_eq_ok {outcome : Except ε α} {result : α} :
    ofExcept outcome = .ok result ↔ outcome = .ok result := by
  cases outcome <;> simp [ofExcept]

end Reply

namespace ApiResponse

/-- An answer tells a reader of an object, or that there is none. -/
def Tells (response : ApiResponse) (decode : Decoder α) : Option α → Prop
  | some value => response.result decode = .ok value
  | none => ∃ error, response.result decode = .error error ∧ error.isAbsentToReader

/-- An answer says that an object is removed, or was absent before. -/
def Removes (response : ApiResponse) : Prop :=
  ¬ response.isRefusal ∨ (Refusal.ofResponse response).code = 404

theorem not_isRefusal_of_result {response : ApiResponse} {decode : Decoder α} {value : α}
    (hresult : response.result decode = .ok value) : ¬ response.isRefusal := by
  intro hrefusal
  rw [result, if_pos hrefusal] at hresult
  cases hresult

theorem removes_of_result {response : ApiResponse} {decode : Decoder α}
    (hresult : (∃ value, response.result decode = .ok value) ∨
      ∃ error, response.result decode = .error error ∧ error.isAbsentToWriter) :
    response.Removes := by
  rcases hresult with ⟨value, hvalue⟩ | ⟨error, herror, habsent⟩
  · exact Or.inl (not_isRefusal_of_result hvalue)
  · by_cases hrefusal : response.isRefusal
    · rw [result, if_pos hrefusal] at herror
      cases herror
      exact Or.inr (of_decide_eq_true habsent)
    · exact Or.inl hrefusal

end ApiResponse

namespace Session

variable {request : ApiRequest} {key : ObjectKey} {decode : Decoder α}
  {asked : List (Exchange ApiQuestion.Answer)}

/-- An attempt is one exchange. -/
theorem held_attempt {reply : Reply RequestError α} :
    (attempt request decode).Held asked reply ↔
      ∃ response : Option ApiResponse, asked = [⟨.attempt request, response⟩] ∧
        reply = response.elim .cancelled fun answer => .ofExcept (answer.result decode) := by
  constructor
  · rintro ⟨response, rest, rfl, rfl, rfl⟩
    exact ⟨response, rfl, rfl⟩
  · rintro ⟨response, rfl, rfl⟩
    exact ⟨response, [], rfl, rfl, rfl⟩

theorem held_attempt_ok {value : α} (hheld : (attempt request decode).Held asked (.ok value)) :
    ∃ response, asked = [⟨.attempt request, some response⟩] ∧
      response.result decode = .ok value := by
  obtain ⟨response, rfl, hreply⟩ := held_attempt.mp hheld
  cases response with
  | none => cases hreply
  | some answer => exact ⟨answer, rfl, Reply.ofExcept_eq_ok.mp hreply.symm⟩

/-- What goes on from an attempt, and is only well if the attempt was answered, goes on from the
answer. -/
theorem held_of_attempt {β : Type} {next : Reply RequestError α → Session (Reply RequestError β)}
    {value : β} (hheld : (attempt request decode >>= next).Held asked (.ok value))
    (hcancelled : next .cancelled = .done .cancelled) :
    ∃ response rest, asked = ⟨.attempt request, some response⟩ :: rest ∧
      (next (.ofExcept (response.result decode))).Held rest (.ok value) := by
  obtain ⟨first, rest, reply, rfl, hattempt, hrest⟩ := Dialogue.held_bind.mp hheld
  obtain ⟨response, rfl, rfl⟩ := held_attempt.mp hattempt
  cases response with
  | none =>
      rw [Option.elim, hcancelled] at hrest
      cases hrest.2
  | some answer => exact ⟨answer, rest, rfl, hrest⟩

/-- What is read is what the answer tells. -/
theorem held_read_ok {found : Option α} (hheld : (read key decode).Held asked (.ok found)) :
    ∃ response, asked = [⟨.attempt (.get key), some response⟩] ∧
      response.Tells decode found := by
  rw [read] at hheld
  split at hheld
  · cases hheld.2
  · obtain ⟨answer, rest, rfl, hrest⟩ := held_of_attempt hheld rfl
    cases hresult : answer.result decode with
    | ok value =>
        rw [hresult] at hrest
        obtain ⟨rfl, hfound⟩ := hrest
        cases hfound
        exact ⟨answer, rfl, hresult⟩
    | error error =>
        rw [hresult] at hrest
        obtain ⟨rfl, hfound⟩ := hrest
        split at hfound
        case isTrue habsent =>
          cases hfound
          exact ⟨answer, rfl, error, hresult, habsent⟩
        case isFalse => cases hfound

/-- What is written was accepted, or the object was absent. -/
theorem held_write_ok (hheld : (write request decode).Held asked (.ok ())) :
    ∃ response, asked = [⟨.attempt request, some response⟩] ∧ response.Removes := by
  rw [write] at hheld
  obtain ⟨answer, rest, rfl, hrest⟩ := held_of_attempt hheld rfl
  cases hresult : answer.result decode with
  | ok value =>
      rw [hresult] at hrest
      obtain ⟨rfl, -⟩ := hrest
      exact ⟨answer, rfl, ApiResponse.removes_of_result (Or.inl ⟨value, hresult⟩)⟩
  | error error =>
      rw [hresult] at hrest
      obtain ⟨rfl, hdone⟩ := hrest
      split at hdone
      case isTrue habsent =>
        exact ⟨answer, rfl, ApiResponse.removes_of_result (Or.inr ⟨error, hresult, habsent⟩)⟩
      case isFalse => cases hdone

end Session

/-- What an exchange with an API server can show to have happened. -/
inductive Milestone where
  /-- The bundle was seen to be absent. -/
  | absent (key : ObjectKey)
  | published (key : ObjectKey) (payload : BundlePayload)
  /-- The bundle was seen to be healthy as it is now. -/
  | healthy (key : ObjectKey)
  | removed (key : ObjectKey)
  /-- The phase was stored in the status of the record. -/
  | stored (key : ObjectKey) (phase : Phase)
  /-- The finalizer is taken away from the record. -/
  | released (key : ObjectKey)

namespace Milestone

/-- The exchange shows that this has happened. -/
def ShownBy : Milestone → Exchange ApiQuestion.Answer → Prop
  | .absent key, exchange => ∃ response : ApiResponse,
      exchange = ⟨.attempt (.get key), some response⟩ ∧ response.Tells NodeBundle.decode none
  | .published key payload, exchange => ∃ (response : ApiResponse) (bundle : NodeBundle),
      exchange = ⟨.attempt (.apply key (NodeBundle.publication (key.ns.getD "") key.name payload)),
        some response⟩ ∧ response.result NodeBundle.decode = .ok bundle
  | .healthy key, exchange => ∃ (response : ApiResponse) (bundle : NodeBundle)
      (status : BundleStatus), exchange = ⟨.attempt (.get key), some response⟩ ∧
        response.Tells NodeBundle.decode (some bundle) ∧ bundle.isHealthy ∧
        bundle.status = some status ∧ ∀ generation, bundle.metadata.generation = some generation →
          ∃ observed, status.observedGeneration = some observed ∧ generation ≤ observed
  | .removed key, exchange => ∃ response : ApiResponse,
      exchange = ⟨.attempt (.delete key), some response⟩ ∧ response.Removes
  | .stored key phase, exchange => ∃ (status : RecordStatus) (response : ApiResponse),
      exchange = ⟨.request (.mergeStatus key (Controller.statusChange status)), response⟩ ∧
        status.phase = some phase ∧ Controller.Granted response
  | .released key, exchange => ∃ (position : Nat) (response : ApiResponse),
      exchange = ⟨.request (.patch key (Controller.removeFinalizer position)), response⟩

/-- These milestones were reached in this order. -/
abbrev Reached (milestones : List Milestone) (exchanges : List (Exchange ApiQuestion.Answer)) :
    Prop :=
  List.SublistForall₂ ShownBy milestones exchanges

theorem Reached.append {first rest : List Milestone}
    {exchanges others : List (Exchange ApiQuestion.Answer)} (hfirst : Reached first exchanges)
    (hrest : Reached rest others) : Reached (first ++ rest) (exchanges ++ others) := by
  induction hfirst with
  | @nil exchanges =>
      induction exchanges with
      | nil => exact hrest
      | cons exchange tail ih => exact .cons_right ih
  | cons hshown _ ih => exact .cons hshown ih
  | cons_right _ ih => exact .cons_right ih

end Milestone

/-- A bundle is only healthy when the agent has seen it as it is now. -/
theorem NodeBundle.exists_status_of_isHealthy {bundle : NodeBundle} (hhealthy : bundle.isHealthy) :
    ∃ status, bundle.status = some status ∧ ∀ generation,
      bundle.metadata.generation = some generation →
        ∃ observed, status.observedGeneration = some observed ∧ generation ≤ observed := by
  rw [isHealthy] at hhealthy
  cases hstatus : bundle.status with
  | none =>
      rw [hstatus] at hhealthy
      cases hhealthy
  | some status =>
      rw [hstatus] at hhealthy
      simp only [Bool.and_eq_true] at hhealthy
      refine ⟨status, rfl, ?_⟩
      intro generation hgeneration
      have hcurrent := hhealthy.1
      rw [isCurrent, hgeneration] at hcurrent
      cases hobserved : status.observedGeneration with
      | none =>
          rw [hobserved] at hcurrent
          cases hcurrent
      | some observed =>
          rw [hobserved] at hcurrent
          exact ⟨observed, rfl, of_decide_eq_true hcurrent⟩

/-- What has happened when a state of a bundle was waited for. -/
def BundleState.milestone (key : ObjectKey) : BundleState → Milestone
  | .healthy => .healthy key
  | .deleted => .absent key

theorem BundleState.shown_of_holds {state : BundleState} {key : ObjectKey}
    {response : ApiResponse} {found : Option NodeBundle}
    (htells : response.Tells NodeBundle.decode found) (hholds : state.holds found) :
    (state.milestone key).ShownBy ⟨.attempt (.get key), some response⟩ := by
  cases state with
  | healthy =>
      cases found with
      | none => cases hholds
      | some bundle =>
          obtain ⟨status, hstatus, hseen⟩ := NodeBundle.exists_status_of_isHealthy hholds
          exact ⟨response, bundle, status, rfl, htells, hholds, hstatus, hseen⟩
  | deleted =>
      cases found with
      | none => exact ⟨response, rfl, htells⟩
      | some bundle => cases hholds

/-- What a call shows to have happened when it succeeds. -/
def Call.milestones : Call → List Milestone
  | .channel ns bundle (.publish payload) => [.published ⟨.bundle, some ns, bundle⟩ payload]
  | .channel ns bundle .withdraw => [.removed ⟨.bundle, some ns, bundle⟩]
  | .channel ns bundle (.await state _) => [state.milestone ⟨.bundle, some ns, bundle⟩]
  | .monitoring ns .remove =>
      Monitoring.objectNames.map fun (kind, name) => .removed ⟨kind, some ns, name⟩
  | _ => []

namespace ApiCalls

open Milestone

variable {asked : List (Exchange ApiQuestion.Answer)}

/-- When a wait succeeds, the last look has found the state. -/
theorem reached_of_lookAt {key : ObjectKey} {state : BundleState} {interval timeout : Nat}
    {looks rest : Nat}
    (hheld : (lookAt key state interval timeout looks rest).Held asked (.ok ())) :
    Reached [state.milestone key] asked := by
  induction looks generalizing rest asked with
  | zero =>
      rw [lookAt] at hheld
      obtain ⟨first, others, stopped, rfl, -, hothers⟩ := Dialogue.held_bind.mp hheld
      cases stopped
      · cases hothers.2
      · cases hothers.2
  | succ looks ih =>
      rw [lookAt] at hheld
      obtain ⟨first, others, reply, rfl, hread, hothers⟩ := Dialogue.held_bind.mp hheld
      cases reply with
      | cancelled => cases hothers.2
      | failed error => cases hothers.2
      | ok found =>
          obtain ⟨response, rfl, htells⟩ := Session.held_read_ok hread
          dsimp only at hothers
          split at hothers
          case isTrue hholds => exact .cons (BundleState.shown_of_holds htells hholds) .nil
          case isFalse =>
            refine .cons_right ?_
            split at hothers
            case isTrue hlast =>
              subst hlast
              exact ih hothers
            case isFalse =>
              obtain ⟨paused, later, stopped, rfl, hpaused, hlater⟩ :=
                Dialogue.held_bind.mp hothers
              cases stopped with
              | true => cases hlater.2
              | false =>
                  obtain rfl := Dialogue.held_query.mp hpaused
                  exact .cons_right (ih hlater)

/-- When objects were removed in turn, the removal of each of them was accepted. -/
theorem reached_of_inTurn {objects : List (ResourceKind × String)} {ns : String}
    (hheld : (inTurn (fun (kind, name) =>
      Session.write (.delete ⟨kind, some ns, name⟩) (removed anyObject)) objects).Held asked
        (.ok ())) :
    Reached (objects.map fun (kind, name) => .removed ⟨kind, some ns, name⟩) asked := by
  induction objects generalizing asked with
  | nil => exact .nil
  | cons object rest ih =>
      obtain ⟨first, others, reply, rfl, hwrite, hothers⟩ := Dialogue.held_bind.mp hheld
      cases reply with
      | cancelled => cases hothers.2
      | failed error => cases hothers.2
      | ok done =>
          obtain ⟨response, rfl, hremoves⟩ := Session.held_write_ok hwrite
          exact .cons ⟨response, rfl, hremoves⟩ (ih hothers)

/-- When the nodes are made to keep everything, the bundle was changed or there was none. -/
theorem held_keep_ok {interval : Nat} {ns bundle : String}
    (hheld : (perform interval (.channel ns bundle .keep)).Held asked (.ok ())) :
    ∃ response, asked =
        [⟨.attempt (.merge ⟨.bundle, some ns, bundle⟩ NodeBundle.keepChange), some response⟩] ∧
      (¬ response.isRefusal ∨ (Refusal.ofResponse response).code = 404) := by
  obtain ⟨first, rest, reply, rfl, hwrite, rfl, hreply⟩ := Dialogue.held_bind.mp hheld
  rw [Reply.mapError_eq_ok.mp hreply.symm] at hwrite
  rw [List.append_nil]
  exact Session.held_write_ok hwrite

/-- A call that succeeds has reached its milestones. -/
theorem reached_of_perform {interval : Nat} {call : Call} {result : call.Result}
    (hheld : (perform interval call).Held asked (.ok result)) : Reached call.milestones asked := by
  cases call with
  | cluster ns => exact .nil
  | secret ns name => exact .nil
  | configMap ns name => exact .nil
  | monitoring ns action =>
      cases action with
      | apply objects => exact .nil
      | remove => exact reached_of_inTurn hheld
  | channel ns bundle action =>
      cases action with
      | keep => exact .nil
      | await state seconds => exact reached_of_lookAt hheld
      | publish payload =>
          obtain ⟨first, rest, reply, rfl, hattempt, rfl, hreply⟩ := Dialogue.held_bind.mp hheld
          obtain ⟨written, rfl, -⟩ := Reply.map_eq_ok.mp (Reply.mapError_eq_ok.mp hreply.symm)
          obtain ⟨response, rfl, hresult⟩ := Session.held_attempt_ok hattempt
          exact .cons ⟨response, written, rfl, hresult⟩ .nil
      | withdraw =>
          obtain ⟨first, rest, reply, rfl, hwrite, rfl, hreply⟩ := Dialogue.held_bind.mp hheld
          rw [Reply.mapError_eq_ok.mp hreply.symm] at hwrite
          obtain ⟨response, rfl, hremoves⟩ := Session.held_write_ok hwrite
          exact .cons ⟨response, rfl, hremoves⟩ .nil

end ApiCalls

/-- The object that a request is about. -/
def ApiRequest.key? : ApiRequest → Option ObjectKey
  | .get key | .delete key | .apply key _ | .merge key _ | .mergeStatus key _ | .patch key _ =>
      some key
  | .list _ _ | .watch _ _ => none

/-- The request that is made when a question is asked. -/
def ApiQuestion.request? : ApiQuestion → Option ApiRequest
  | .request made | .attempt made => some made
  | .pause _ | .now => none

/-- The objects that are written as a whole by a call. -/
def Call.written : Call → List ObjectKey
  | .channel ns bundle (.publish _) => [⟨.bundle, some ns, bundle⟩]
  | .monitoring ns (.apply objects) => objects.map fun object => ⟨object.kind, some ns, object.name⟩
  | _ => []

/-- The object that is written as a whole when a question is asked. -/
def ApiQuestion.written? : ApiQuestion → Option ObjectKey
  | .request (.apply key _) | .attempt (.apply key _) => some key
  | _ => none

/-- The requests with which a call is made. -/
def Call.Makes : Call → ApiRequest → Prop
  | .channel ns bundle (.publish payload), request =>
      request = .apply ⟨.bundle, some ns, bundle⟩ (NodeBundle.publication ns bundle payload)
  | .channel ns bundle .keep, request =>
      request = .merge ⟨.bundle, some ns, bundle⟩ NodeBundle.keepChange
  | .channel ns bundle .withdraw, request => request = .delete ⟨.bundle, some ns, bundle⟩
  | .channel ns bundle (.await _ _), request => request = .get ⟨.bundle, some ns, bundle⟩
  | .monitoring ns (.apply objects), request =>
      ∃ object ∈ objects, request = .apply ⟨object.kind, some ns, object.name⟩ object.body
  | .monitoring ns .remove, request =>
      ∃ object ∈ Monitoring.objectNames, request = .delete ⟨object.1, some ns, object.2⟩
  | .cluster ns, request => request = .get ⟨.cluster, none, ns⟩
  | .secret ns name, request => request = .get ⟨.secret, some ns, name⟩
  | .configMap ns name, request => request = .get ⟨.configMap, some ns, name⟩

/-- What is asked of an API server when a call is made: its requests, each only as long as the
controller is not told to stop, and pauses between them. -/
def Call.Involves (call : Call) : ApiQuestion → Prop
  | .attempt request => call.Makes request
  | .pause _ => True
  | .request _ | .now => False

theorem Call.Involves.mem_written {call : Call} {question : ApiQuestion}
    (hinvolves : call.Involves question) {key : ObjectKey}
    (hwritten : question.written? = some key) : key ∈ call.written := by
  cases question with
  | request request => exact hinvolves.elim
  | pause seconds => cases hwritten
  | now => cases hwritten
  | attempt request =>
      cases call with
      | channel ns bundle action =>
          cases action with
          | publish payload =>
              cases hinvolves
              cases hwritten
              exact List.mem_singleton.mpr rfl
          | _ =>
              cases hinvolves
              cases hwritten
      | monitoring ns action =>
          cases action with
          | apply objects =>
              obtain ⟨object, hmem, rfl⟩ := hinvolves
              cases hwritten
              exact List.mem_map.mpr ⟨object, hmem, rfl⟩
          | remove =>
              obtain ⟨object, -, rfl⟩ := hinvolves
              cases hwritten
      | _ =>
          cases hinvolves
          cases hwritten

theorem Call.Involves.makes {call : Call} {question : ApiQuestion} {request : ApiRequest}
    (hinvolves : call.Involves question) (hrequest : question.request? = some request) :
    call.Makes request := by
  cases question with
  | attempt made =>
      cases hrequest
      exact hinvolves
  | request made => exact hinvolves.elim
  | pause seconds => cases hrequest
  | now => cases hrequest

section Questions

variable {allowed : ApiQuestion → Prop} {key : ObjectKey} {request : ApiRequest}
  {decode : Decoder α}

theorem Session.asks_attempt (hallowed : allowed (.attempt request)) :
    (attempt request decode).Asks allowed :=
  ⟨hallowed, fun _ => trivial⟩

theorem Session.asks_read (hallowed : allowed (.attempt (.get key))) :
    (read key decode).Asks allowed := by
  rw [read]
  split
  · trivial
  · refine Dialogue.Asks.bind (asks_attempt hallowed) ?_
    intro reply
    cases reply <;> trivial

theorem Session.asks_write (hallowed : allowed (.attempt request)) :
    (write request decode).Asks allowed := by
  refine Dialogue.Asks.bind (asks_attempt hallowed) ?_
  intro reply
  cases reply <;> trivial

namespace ApiCalls

theorem asks_lookAt (hget : allowed (.attempt (.get key))) (hpause : ∀ n, allowed (.pause n))
    {state : BundleState} {interval timeout looks rest : Nat} :
    (lookAt key state interval timeout looks rest).Asks allowed := by
  induction looks generalizing rest with
  | zero =>
      rw [lookAt]
      refine ⟨hpause rest, ?_⟩
      intro stopped
      cases stopped <;> trivial
  | succ looks ih =>
      rw [lookAt]
      refine Dialogue.Asks.bind (Session.asks_read hget) ?_
      intro reply
      cases reply with
      | cancelled => trivial
      | failed error => trivial
      | ok found =>
          dsimp only
          split
          · trivial
          · split
            case isTrue hlast =>
              subst hlast
              exact ih
            case isFalse =>
              refine ⟨hpause interval, ?_⟩
              intro stopped
              cases stopped
              · exact ih
              · trivial

theorem asks_inTurn {β : Type} {act : β → Session (Reply RequestError Unit)} {items : List β}
    (hact : ∀ item ∈ items, (act item).Asks allowed) : (inTurn act items).Asks allowed := by
  induction items with
  | nil => trivial
  | cons item rest ih =>
      refine Dialogue.Asks.bind (hact item List.mem_cons_self) ?_
      intro reply
      cases reply with
      | cancelled => trivial
      | failed error => trivial
      | ok done => exact ih fun other hmem => hact other (List.mem_cons_of_mem item hmem)

/-- To make a call only what it involves is asked. -/
theorem asks_perform (interval : Nat) (call : Call) :
    (perform interval call).Asks call.Involves := by
  cases call with
  | cluster ns => exact Session.asks_read rfl
  | secret ns name => exact Session.asks_read rfl
  | configMap ns name => exact Session.asks_read rfl
  | monitoring ns action =>
      cases action with
      | remove =>
          refine asks_inTurn fun object hmem => Session.asks_write ?_
          exact ⟨object, hmem, rfl⟩
      | apply objects =>
          refine asks_inTurn fun object hmem => Session.asks_attempt ?_
          exact ⟨object, hmem, rfl⟩
  | channel ns bundle action =>
      cases action with
      | await state seconds =>
          apply asks_lookAt
          · rfl
          · exact fun _ => trivial
      | keep => exact Dialogue.Asks.bind (Session.asks_write rfl) fun _ => trivial
      | withdraw => exact Dialogue.Asks.bind (Session.asks_write rfl) fun _ => trivial
      | publish payload =>
          exact Dialogue.Asks.bind (Session.asks_attempt rfl) fun _ => trivial

end ApiCalls

end Questions

/-- A question about the record at a key: what time it is, or a change of what is kept there. -/
def ApiQuestion.IsAbout (key : ObjectKey) : ApiQuestion → Prop
  | .now => True
  | .request (.merge other _) | .request (.mergeStatus other _) | .request (.patch other _) =>
      other = key
  | _ => False

/-- A question belongs to a call of this kind, or it is about the record at a key. -/
def ApiQuestion.BelongsTo (allowed : Call → Prop) (key : ObjectKey) (question : ApiQuestion) : Prop :=
  (∃ call, allowed call ∧ call.Involves question) ∨ question.IsAbout key

/-- A change of the record at a key is about the object at that key. -/
theorem ApiQuestion.IsAbout.key?_eq {key : ObjectKey} {question : ApiQuestion} {request : ApiRequest}
    (habout : question.IsAbout key) (hrequest : question.request? = some request) :
    request.key? = some key := by
  cases question with
  | attempt made => exact habout.elim
  | pause seconds => cases hrequest
  | now => cases hrequest
  | request made =>
      cases hrequest
      cases request with
      | merge other change => exact congrArg some habout
      | mergeStatus other change => exact congrArg some habout
      | patch other operations => exact congrArg some habout
      | _ => exact habout.elim

theorem ApiQuestion.IsAbout.written?_eq_none {key : ObjectKey} {question : ApiQuestion}
    (habout : question.IsAbout key) : question.written? = none := by
  cases question with
  | now => rfl
  | attempt made => exact habout.elim
  | pause seconds => exact habout.elim
  | request made =>
      cases made with
      | merge other change => rfl
      | mergeStatus other change => rfl
      | patch other operations => rfl
      | _ => exact habout.elim

/-- A call of this kind, or a question about the record at a key. -/
def Inquiry.BelongsTo (allowed : Call → Prop) (key : ObjectKey) : Inquiry → Prop
  | .call made => allowed made
  | .api question => question.IsAbout key

namespace Controller

/-- While a record is looked after, the calls are those of its transition, and what is asked beside
them is about the record. -/
theorem asks_belonging {settings : Settings} {record : TenantRecord} {allowed : Call → Prop}
    (hcalls : ∀ ns, record.metadata.ns = some ns →
      Act.Asks allowed (Actuator.transit settings record ns (Transition.plan record))) :
    (care settings record).Asks fun inquiry => ∃ ns, record.metadata.ns = some ns ∧
      inquiry.BelongsTo allowed (recordKey ns (record.metadata.name.getD "")) := by
  refine asks_care fun ns hns => ⟨?_, ?_, ?_, ?_, ?_, ?_⟩
  · exact fun status => (hcalls ns hns status).mono fun call hallowed => ⟨ns, hns, hallowed⟩
  · exact ⟨ns, hns, trivial⟩
  · exact fun _ => ⟨ns, hns, rfl⟩
  · exact fun _ => ⟨ns, hns, rfl⟩
  · exact ⟨ns, hns, rfl⟩
  · exact fun _ => ⟨ns, hns, rfl⟩

/-- What is asked beside the calls of a transition is about the record. -/
theorem isAbout_of_held {settings : Settings} {record : TenantRecord} {ns name : String}
    (hnamed : record.Named ns name) {exchanges : List (Exchange Inquiry.Answer)}
    {outcome : Except ReconcileError Requeue}
    (hheld : (care settings record).Held exchanges outcome)
    {exchange : Exchange ApiQuestion.Answer} (hmem : Care.apiExchange exchange ∈ exchanges) :
    exchange.1.IsAbout (recordKey ns name) := by
  have hasks : (care settings record).Asks fun inquiry => ∃ ns, record.metadata.ns = some ns ∧
      inquiry.BelongsTo (fun _ => True) (recordKey ns (record.metadata.name.getD "")) :=
    asks_belonging fun _ _ _ => Dialogue.Asks.of_forall (fun _ => trivial) _
  obtain ⟨other, hother, habout⟩ := hasks.of_held hheld _ hmem
  obtain rfl := Option.some.inj (hnamed.ns_eq.symm.trans hother)
  rw [hnamed.name_eq] at habout
  exact habout

/-- While a record is looked after, what is asked belongs to the calls of its transition or is about
the record itself. -/
theorem asks_reconcile {settings : Settings} {record : TenantRecord} {allowed : Call → Prop}
    (hcalls : ∀ ns, record.metadata.ns = some ns →
      Act.Asks allowed (Actuator.transit settings record ns (Transition.plan record))) :
    (reconcile settings record).Asks fun question => ∃ ns, record.metadata.ns = some ns ∧
      question.BelongsTo allowed (recordKey ns (record.metadata.name.getD "")) := by
  refine (asks_belonging hcalls).interpret fun inquiry hbelongs => ?_
  obtain ⟨ns, hns, hbelongs⟩ := hbelongs
  cases inquiry with
  | call call =>
      refine (ApiCalls.asks_perform _ call).mono fun question hinvolves => ?_
      exact ⟨ns, hns, Or.inl ⟨call, hbelongs, hinvolves⟩⟩
  | api question => exact ⟨⟨ns, hns, Or.inr hbelongs⟩, fun _ => trivial⟩

end Controller

section Interpretation

variable {interval : Nat} {asked : List (Exchange ApiQuestion.Answer)}

theorem found_callExchanges {calls : List (Exchange Call.Answer)} :
    Dialogue.Found (Care.find interval) (calls.map Care.callExchange) asked ↔
      Dialogue.Found (ApiCalls.perform interval) calls asked := by
  induction calls generalizing asked with
  | nil => exact Iff.rfl
  | cons exchange rest ih =>
      constructor
      · rintro ⟨first, others, rfl, hfirst, hothers⟩
        exact ⟨first, others, rfl, hfirst, ih.mp hothers⟩
      · rintro ⟨first, others, rfl, hfirst, hothers⟩
        exact ⟨first, others, rfl, hfirst, ih.mpr hothers⟩

theorem found_apiExchange {exchange : Exchange ApiQuestion.Answer}
    {rest : List (Exchange Inquiry.Answer)} :
    Dialogue.Found (Care.find interval) (Care.apiExchange exchange :: rest) asked ↔
      ∃ others, asked = exchange :: others ∧ Dialogue.Found (Care.find interval) rest others := by
  constructor
  · rintro ⟨first, others, rfl, hfirst, hothers⟩
    obtain rfl := Dialogue.held_query.mp hfirst
    exact ⟨others, rfl, hothers⟩
  · rintro ⟨others, rfl, hothers⟩
    exact ⟨[exchange], others, rfl, Dialogue.held_query.mpr rfl, hothers⟩

/-- What is asked is asked to make a call, or is a question about the record. -/
theorem asked_of_found {exchanges : List (Exchange Inquiry.Answer)}
    (hfound : Dialogue.Found (Care.find interval) exchanges asked)
    {exchange : Exchange ApiQuestion.Answer} (hmem : exchange ∈ asked) :
    (∃ made ∈ Care.callsOf exchanges, made.1.Involves exchange.1) ∨
      Care.apiExchange exchange ∈ exchanges := by
  obtain ⟨⟨inquiry, answer⟩, hinquiry, part, hpart, hmem⟩ := hfound.exists_of_mem hmem
  cases inquiry with
  | call made =>
      exact Or.inl ⟨⟨made, answer⟩, List.mem_filterMap.mpr ⟨_, hinquiry, rfl⟩,
        (ApiCalls.asks_perform interval made).of_held hpart _ hmem⟩
  | api question =>
      obtain rfl := Dialogue.held_query.mp hpart
      rw [List.mem_singleton] at hmem
      rw [hmem]
      exact Or.inr hinquiry

/-- Only changes of the record itself are made come what may. -/
theorem changeExchange_mem_of_found {exchanges : List (Exchange Inquiry.Answer)}
    (hfound : Dialogue.Found (Care.find interval) exchanges asked) {request : ApiRequest}
    {response : ApiResponse} (hmem : ⟨.request request, response⟩ ∈ asked) :
    Care.changeExchange request response ∈ exchanges := by
  rcases asked_of_found hfound hmem with ⟨made, -, hinvolves⟩ | hchange
  · exact hinvolves.elim
  · exact hchange

/-- Calls that succeed one after the other reach their milestones in their order. -/
theorem reached_of_found {calls : List (Exchange Call.Answer)}
    (hok : ∀ exchange ∈ calls, ∃ result, exchange.2 = .ok result)
    (hfound : Dialogue.Found (ApiCalls.perform interval) calls asked) :
    Milestone.Reached (calls.flatMap fun exchange => exchange.1.milestones) asked := by
  induction calls generalizing asked with
  | nil => exact .nil
  | cons exchange rest ih =>
      obtain ⟨first, others, rfl, hfirst, hothers⟩ := hfound
      obtain ⟨result, hresult⟩ := hok exchange List.mem_cons_self
      rw [hresult] at hfirst
      rw [List.flatMap_cons]
      refine (ApiCalls.reached_of_perform hfirst).append (ih ?_ hothers)
      exact fun other hmem => hok other (List.mem_cons_of_mem exchange hmem)

end Interpretation

end LogForwarding
