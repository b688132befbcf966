import LogForwarding.Proofs.Requests
import LogForwarding.Proofs.Run
import LogForwarding.Proofs.Server
import Mathlib.Logic.Function.Basic

/-!
What an API server keeps, and what becomes of it while a controller makes its requests and others
change what they may.  The server tells the truth when it answers, but an answer may be lost, or be
a failure although the request was carried out.
-/

namespace LogForwarding

/-- The objects that an API server keeps. -/
abbrev Objects : Type := ObjectKey → Option Json

/-- If there is such an object, this holds of it. -/
def Objects.Has (objects : Objects) (key : ObjectKey) (holds : Json → Prop) : Prop :=
  ∀ value, objects key = some value → holds value

namespace ApiRequest

/-- What may become of the object that a request is about.  An object that is removed may stay until
everybody has let go of it. -/
def CarriedOut : ApiRequest → (found left : Option Json) → Prop
  | .delete _, found, left => left = none ∨ left = found
  | .apply _ _, _, left => left.isSome
  | request, found, left => left = found.map request.change

/-- What a request makes of all that is kept: only the object that it is about is changed. -/
def Alters (request : ApiRequest) (before after : Objects) : Prop :=
  match request.key? with
  | none => after = before
  | some key => ∃ left, request.CarriedOut (before key) left ∧
      after = Function.update before key left

/-- A request that is answered was carried out unless it is refused.  One that is refused was not
carried out when there is no such object, and may have been when it has failed in another way. -/
inductive Serves (request : ApiRequest) : ApiResponse → Objects → Objects → Prop
  | accepted {response : ApiResponse} {before after : Objects} (hrefusal : ¬ response.isRefusal)
      (halters : request.Alters before after) : Serves request response before after
  | absent {response : ApiResponse} {objects : Objects}
      (hcode : (Refusal.ofResponse response).code = 404)
      (habsent : ∀ key, request.key? = some key → objects key = none) :
      Serves request response objects objects
  | failed {response : ApiResponse} {before after : Objects} (hrefusal : response.isRefusal)
      (hcode : (Refusal.ofResponse response).code ≠ 404)
      (halters : after = before ∨ request.Alters before after) :
      Serves request response before after

/-- What holds of an object still holds after a request about it. -/
def Upholds (holds : Json → Prop) : ApiRequest → Prop
  | .delete _ => True
  | .apply _ _ => False
  | request => ∀ value, holds value → holds (request.change value)

variable {request : ApiRequest} {before after : Objects} {key : ObjectKey} {holds : Json → Prop}

theorem CarriedOut.of_upholds {found left : Option Json} (hcarried : request.CarriedOut found left)
    (hupholds : request.Upholds holds) (hfound : ∀ value, found = some value → holds value) :
    ∀ value, left = some value → holds value := by
  intro value hleft
  cases request with
  | delete other =>
      rcases hcarried with hnone | hsame
      · rw [hnone] at hleft
        cases hleft
      · exact hfound value (hsame.symm.trans hleft)
  | apply other body => exact hupholds.elim
  | _ =>
      obtain ⟨old, hold, rfl⟩ := Option.map_eq_some_iff.mp (hcarried.symm.trans hleft)
      exact hupholds old (hfound old hold)

/-- A request that is about another object, or upholds what holds of this one. -/
theorem Alters.has (halters : request.Alters before after)
    (hupholds : request.key? = some key → request.Upholds holds)
    (hbefore : before.Has key holds) : after.Has key holds := by
  rw [Alters] at halters
  split at halters
  · rw [halters]
    exact hbefore
  case h_2 other hother =>
    obtain ⟨left, hcarried, rfl⟩ := halters
    by_cases hkey : key = other
    · subst hkey
      intro value hvalue
      rw [Function.update_self] at hvalue
      exact hcarried.of_upholds (hupholds hother) hbefore value hvalue
    · intro value hvalue
      rw [Function.update_of_ne hkey] at hvalue
      exact hbefore value hvalue

/-- What is merged into an object makes this true of it, whatever it was before. -/
def Establishes (holds : Json → Prop) : ApiRequest → Prop
  | .merge _ change | .mergeStatus _ change => ∀ value, holds (Json.merge change value)
  | _ => False

/-- When a change is accepted, or refused for want of an object, what it establishes holds. -/
theorem Serves.has {response : ApiResponse} (hserves : request.Serves response before after)
    (hresponse : ¬ response.isRefusal ∨ (Refusal.ofResponse response).code = 404)
    (hestablishes : request.Establishes holds) (hkey : request.key? = some key) :
    after.Has key holds := by
  cases hserves with
  | absent hcode habsent =>
      intro value hvalue
      rw [habsent key hkey] at hvalue
      cases hvalue
  | failed hrefusal hcode halters => exact absurd hresponse (by simp [hrefusal, hcode])
  | accepted hrefusal halters =>
      rw [Alters, hkey] at halters
      obtain ⟨left, hcarried, rfl⟩ := halters
      intro value hvalue
      rw [Function.update_self] at hvalue
      cases request with
      | merge other change =>
          obtain ⟨old, -, rfl⟩ := Option.map_eq_some_iff.mp (hcarried.symm.trans hvalue)
          exact hestablishes old
      | mergeStatus other change =>
          obtain ⟨old, -, rfl⟩ := Option.map_eq_some_iff.mp (hcarried.symm.trans hvalue)
          exact hestablishes old
      | _ => exact hestablishes.elim

end ApiRequest

/-- What may become of all that is kept when a question has this answer.  An attempt that was given
up may have been carried out. -/
def ApiQuestion.Leaves : (question : ApiQuestion) → question.Answer → (before after : Objects) → Prop
  | .request made, response, before, after => made.Serves response before after
  | .attempt made, some response, before, after => made.Serves response before after
  | .attempt made, none, before, after => after = before ∨ made.Alters before after
  | .pause _, _, before, after | .now, _, before, after => after = before

theorem ApiRequest.Serves.eq_or_alters {request : ApiRequest} {response : ApiResponse}
    {before after : Objects} (hserves : request.Serves response before after) :
    after = before ∨ request.Alters before after := by
  cases hserves with
  | accepted hrefusal halters => exact Or.inr halters
  | absent hcode habsent => exact Or.inl rfl
  | failed hrefusal hcode halters => exact halters

theorem ApiQuestion.Leaves.eq_or_alters {question : ApiQuestion} {answer : question.Answer}
    {before after : Objects} (hleaves : question.Leaves answer before after) :
    after = before ∨ ∃ request, question.request? = some request ∧ request.Alters before after := by
  cases question with
  | request made =>
      exact (ApiRequest.Serves.eq_or_alters hleaves).imp_right fun halters => ⟨made, rfl, halters⟩
  | pause seconds => exact Or.inl hleaves
  | now => exact Or.inl hleaves
  | attempt made =>
      cases answer with
      | none => exact Or.imp_right (fun halters => ⟨made, rfl, halters⟩) hleaves
      | some response =>
          exact (ApiRequest.Serves.eq_or_alters hleaves).imp_right
            fun halters => ⟨made, rfl, halters⟩

/-- An object may go away and may be changed, but it does not appear, and this member of it stays. -/
def Spared (member : String) (before after : Option Json) : Prop :=
  ∀ value, after = some value → ∃ old, before = some old ∧ value.get? member = old.get? member

theorem Spared.refl (member : String) (object : Option Json) : Spared member object object :=
  fun value hvalue => ⟨value, hvalue, rfl⟩

/-- Others may do what they like, but they neither write the bundles of the tenant nor what is
reported in its record. -/
structure Undisturbed (ns name : String) (before after : Objects) : Prop where
  bundle : ∀ bundle, Spared "spec" (before ⟨.bundle, some ns, bundle⟩)
    (after ⟨.bundle, some ns, bundle⟩)
  record : Spared "status" (before (Controller.recordKey ns name))
    (after (Controller.recordKey ns name))

theorem Undisturbed.refl (ns name : String) (objects : Objects) :
    Undisturbed ns name objects objects :=
  ⟨fun _ => .refl _ _, .refl _ _⟩

/-- What is only about a member that is spared still holds. -/
theorem Spared.has (holds : Option Json → Prop) {before after : Objects} {key : ObjectKey}
    {member : String} (hspared : Spared member (before key) (after key))
    (hbefore : before.Has key fun value => holds (value.get? member)) :
    after.Has key fun value => holds (value.get? member) := by
  intro value hvalue
  obtain ⟨old, hold, heq⟩ := hspared value hvalue
  rw [heq]
  exact hbefore old hold

/-- An exchange, and what is kept when it is made. -/
structure Encounter where
  exchange : Exchange ApiQuestion.Answer
  objects : Objects

/-- Exchanges follow each other, and others may change what they may before each of them and after
the last. -/
inductive Encounters (ns name : String) : Objects → List Encounter → Objects → Prop
  | nil {before after : Objects} (hothers : Undisturbed ns name before after) :
      Encounters ns name before [] after
  | cons {before found left after : Objects} {exchange : Exchange ApiQuestion.Answer}
      {rest : List Encounter} (hothers : Undisturbed ns name before found)
      (hleaves : exchange.1.Leaves exchange.2 found left)
      (hrest : Encounters ns name left rest after) :
      Encounters ns name before (⟨exchange, found⟩ :: rest) after

section Lived

variable {ns name : String} {before after : Objects} {key : ObjectKey} {holds : Json → Prop}

/-- What others spare and no exchange changes holds at every exchange and at the end. -/
theorem Encounters.has {encounters : List Encounter}
    (hlived : Encounters ns name before encounters after)
    (hothers : ∀ {before after}, Undisturbed ns name before after → Objects.Has before key holds →
      Objects.Has after key holds)
    (hasked : ∀ encounter ∈ encounters, ∀ request, encounter.exchange.1.request? = some request →
      request.key? = some key → request.Upholds holds)
    (hbefore : before.Has key holds) :
    after.Has key holds ∧ ∀ encounter ∈ encounters, encounter.objects.Has key holds := by
  induction hlived with
  | nil hdrift => exact ⟨hothers hdrift hbefore, by simp⟩
  | @cons before found left after exchange rest hdrift hleaves hrest ih =>
      have hfound := hothers hdrift hbefore
      have hleft : left.Has key holds := by
        rcases hleaves.eq_or_alters with rfl | ⟨request, hrequest, halters⟩
        · exact hfound
        · exact halters.has (hasked _ List.mem_cons_self request hrequest) hfound
      obtain ⟨hafter, hall⟩ := ih
        (fun encounter hmem => hasked encounter (List.mem_cons_of_mem _ hmem)) hleft
      refine ⟨hafter, ?_⟩
      intro encounter hmem
      rcases List.mem_cons.mp hmem with rfl | hmem
      · exact hfound
      · exact hall encounter hmem

/-- What one exchange establishes, others spare and no later exchange changes holds from then on. -/
theorem Encounters.has_from {first rest : List Encounter} {encounter : Encounter}
    (hlived : Encounters ns name before (first ++ encounter :: rest) after)
    (hothers : ∀ {before after}, Undisturbed ns name before after → Objects.Has before key holds →
      Objects.Has after key holds)
    (hestablished : ∀ left, encounter.exchange.1.Leaves encounter.exchange.2 encounter.objects left →
      left.Has key holds)
    (hasked : ∀ other ∈ rest, ∀ request, other.exchange.1.request? = some request →
      request.key? = some key → request.Upholds holds) :
    after.Has key holds ∧ ∀ other ∈ rest, other.objects.Has key holds := by
  induction first generalizing before with
  | nil =>
      cases hlived with
      | cons hdrift hleaves hrest => exact hrest.has hothers hasked (hestablished _ hleaves)
  | cons earlier others ih =>
      cases hlived with
      | cons hdrift hleaves hrest => exact ih hrest

end Lived

section Plain

/-- The exchanges that are held with a server, with what is kept at each of them. -/
def Dialogue.encountersWith {α : Type}
    (answer : (question : ApiQuestion) → Objects → question.Answer × Objects) :
    Session α → Objects → List Encounter
  | .done _, _ => []
  | .ask question next, objects =>
      ⟨⟨question, (answer question objects).1⟩, objects⟩ ::
        (next (answer question objects).1).encountersWith answer (answer question objects).2

section Held

variable {α : Type} {answer : (question : ApiQuestion) → Objects → question.Answer × Objects}

theorem Dialogue.map_encountersWith (session : Session α) (objects : Objects) :
    (session.encountersWith answer objects).map (·.exchange) =
      session.exchangesWith answer objects := by
  induction session generalizing objects with
  | done result => rfl
  | ask question next ih => exact congrArg _ (ih _ _)

theorem Encounters.of_run {ns name : String} (hserver : ∀ (question : ApiQuestion) objects,
      question.Leaves (answer question objects).1 objects (answer question objects).2)
    (session : Session α) (objects : Objects) {after : Objects}
    (hothers : Undisturbed ns name (session.run answer objects).2 after) :
    Encounters ns name objects (session.encountersWith answer objects) after := by
  induction session generalizing objects with
  | done result => exact .nil hothers
  | ask question next ih =>
      exact .cons (.refl ns name objects) (hserver question objects) (ih _ _ hothers)

end Held

theorem Simulation.refusal_body (code : Nat) (reason message : String) :
    (refusal code reason message).body =
      .obj [("code", .int code), ("message", .str message), ("reason", .str reason),
        ("status", .str "Failure")] := by
  simp only [refusal, Json.object, Dictionary.ofList, List.foldl_cons, List.foldl_nil,
    Dictionary.insert, String.reduceLT, String.reduceEq, reduceIte]

theorem Simulation.code_notFound (path : String) :
    (Refusal.ofResponse (notFound path)).code = 404 := by
  rw [Refusal.ofResponse, notFound, refusal_body]
  rfl

theorem Simulation.code_unprocessable : (Refusal.ofResponse unprocessable).code = 422 := by
  rw [Refusal.ofResponse, unprocessable, refusal_body]
  rfl

/-- What comes of a change that is made as it is written. -/
theorem changedObject_cases (key : ObjectKey) (found : Option Json) (change : Json → Option Json) :
    (∃ object body, found = some object ∧ change object = some body ∧
      changedObject key found change = (⟨200, body⟩, some body)) ∨
    (found = none ∧ changedObject key found change = (Simulation.notFound key.path, none)) ∨
    changedObject key found change = (Simulation.unprocessable, found) := by
  cases found with
  | none => exact Or.inr (Or.inl ⟨rfl, rfl⟩)
  | some object =>
      cases hchange : change object with
      | none => simp [changedObject, hchange]
      | some body => exact Or.inl ⟨object, body, rfl, hchange, by simp [changedObject, hchange]⟩

/-- A change is merged into any object that is there. -/
theorem changedObject_merge_cases (key : ObjectKey) (found : Option Json) (change : Json) :
    let changed := changedObject key found fun object => some (Json.merge change object)
    (∃ body, changed.1 = ⟨200, body⟩ ∧ changed.2 = found.map (Json.merge change)) ∨
      (found = none ∧ changed = (Simulation.notFound key.path, none)) := by
  cases found with
  | none => exact Or.inr ⟨rfl, rfl⟩
  | some object => exact Or.inl ⟨Json.merge change object, rfl, rfl⟩

/-- The server that keeps objects as they are written carries a request out or says why not. -/
theorem ApiRequest.respond_cases {request : ApiRequest} {key : ObjectKey}
    (hkey : request.key? = some key) (found : Option Json) :
    (∃ body, (request.respond found).1 = ⟨200, body⟩ ∧
      request.CarriedOut found (request.respond found).2) ∨
    (found = none ∧ request.respond found = (Simulation.notFound key.path, none)) ∨
    request.respond found = (Simulation.unprocessable, found) := by
  cases request with
  | get other =>
      cases hkey
      cases found with
      | none => exact Or.inr (Or.inl ⟨rfl, rfl⟩)
      | some object => exact Or.inl ⟨object, rfl, rfl⟩
  | delete other =>
      cases hkey
      cases found with
      | none => exact Or.inr (Or.inl ⟨rfl, rfl⟩)
      | some object => exact Or.inl ⟨object, rfl, Or.inl rfl⟩
  | apply other body => exact Or.inl ⟨_, rfl, rfl⟩
  | merge other change =>
      cases hkey
      exact (changedObject_merge_cases key found change).imp_right Or.inl
  | mergeStatus other change =>
      cases hkey
      exact (changedObject_merge_cases key found change).imp_right Or.inl
  | patch other operations =>
      cases hkey
      refine (changedObject_cases key found _).imp_left ?_
      rintro ⟨object, body, rfl, hbody, heq⟩
      refine ⟨body, congrArg Prod.fst heq, ?_⟩
      show (changedObject key _ _).2 = some ((Json.patchAll operations object).getD object)
      rw [heq, hbody, Option.getD_some]
  | list kind ns => cases hkey
  | watch kind ns => cases hkey

theorem ApiServer.plain_serves (request : ApiRequest) (objects : Objects) :
    request.Serves (plain.serve request objects).1 objects (plain.serve request objects).2 := by
  cases hkey : request.key? with
  | none =>
      have hserve : plain.serve request objects = (⟨200, .null⟩, objects) := by
        rw [serve, hkey]
        rfl
      rw [hserve]
      exact .accepted (by simp [ApiResponse.isRefusal]) (by rw [ApiRequest.Alters, hkey])
  | some key =>
      rw [serve_of_key? hkey]
      have hrespond : plain.respond request (objects key) = request.respond (objects key) := rfl
      rw [hrespond]
      rcases ApiRequest.respond_cases hkey (objects key) with ⟨body, hbody, hcarried⟩ |
        ⟨hnone, heq⟩ | heq
      · rw [hbody]
        refine .accepted (by simp [ApiResponse.isRefusal]) ?_
        rw [ApiRequest.Alters, hkey]
        exact ⟨_, hcarried, rfl⟩
      · rw [heq, ← hnone, Function.update_eq_self]
        refine .absent (Simulation.code_notFound _) ?_
        intro other hother
        rw [← Option.some.inj (hkey.symm.trans hother)]
        exact hnone
      · rw [heq, Function.update_eq_self]
        refine .failed (by simp [ApiResponse.isRefusal, Simulation.unprocessable,
          Simulation.refusal]) ?_ (Or.inl rfl)
        rw [Simulation.code_unprocessable]
        decide

/-- The server that keeps objects as they are written tells the truth. -/
theorem ApiServer.plain_leaves (question : ApiQuestion) (objects : Objects) :
    question.Leaves (plain.answer .calm question objects).1 objects
      (plain.answer .calm question objects).2 := by
  cases question with
  | request made => exact plain_serves made objects
  | attempt made => exact plain_serves made objects
  | pause seconds => rfl
  | now => rfl

end Plain

end LogForwarding
