import LogForwarding.Proofs.Deployment
import LogForwarding.Proofs.Separation

/-!
The objects by which a tenant is observed, over any history.  They are written and removed in turn,
and each attempt may come to an end at any of them.  A removal that succeeds makes up for all that
was written before, and no other object notices any of this.
-/

namespace LogForwarding

namespace Monitoring

/-- Where the objects of a tenant are kept. -/
def keys (ns : String) : List ObjectKey :=
  objectNames.map fun (kind, name) => ⟨kind, some ns, name⟩

/-- Something that happens while a tenant is observed. -/
inductive Occurrence where
  /-- The objects are written. -/
  | apply (audit : Bool) (settings : MonitoringSettings)
  | remove
  /-- Somebody else makes a request. -/
  | foreign (request : ApiRequest)

def Occurrence.isForeign : Occurrence → Bool
  | .foreign _ => true
  | _ => false

theorem nodup_keys (ns : String) : (keys ns).Nodup := by
  refine List.Nodup.map ?_ (by decide)
  intro object other heq
  injection heq with hkind _ hname
  exact Prod.ext hkind hname

theorem mem_keys_of_mem_objects {ns : String} {audit : Bool} {settings : MonitoringSettings}
    {object : ManagedObject} (hmem : object ∈ objects ns audit settings) :
    ⟨object.kind, some ns, object.name⟩ ∈ keys ns :=
  List.mem_map.mpr ⟨_, mem_objectNames_of_mem_objects hmem, rfl⟩

end Monitoring

/-- What is answered in the place of the server does not claim that an object is removed. -/
def Instant.IsHonest (instant : Instant) : Prop :=
  ∀ fault, instant.fault = some fault → ¬ fault.Removes

namespace ApiServer

open ApiCalls Monitoring

variable {Cell : Type}

/-- A server that removes objects at once, and says so when there is nothing to remove. -/
structure RemovesAtOnce (server : ApiServer Cell) (absent : Cell → Prop) : Prop where
  gone : ∀ key cell, (server.respond (.delete key) cell).1.Removes →
    absent (server.respond (.delete key) cell).2
  missing : ∀ key cell, absent cell → (server.respond (.delete key) cell).1.isRefusal ∧
    (Refusal.ofResponse (server.respond (.delete key) cell).1).code = 404

section History

variable (server : ApiServer Cell) (instants : Nat → Instant) (ns : String)

/-- How a call for a tenant ends that is made from a moment on, and what it leaves. -/
def monitor (action : MonitoringAction) (state : Nat × (ObjectKey → Cell)) :
    Reply RequestError Unit × (Nat × (ObjectKey → Cell)) :=
  (monitoring ns action).run (server.answerTimed instants) state

def undergo (state : Nat × (ObjectKey → Cell)) : Occurrence → Nat × (ObjectKey → Cell)
  | .apply audit settings =>
      (server.monitor instants ns (.apply (objects ns audit settings)) state).2
  | .remove => (server.monitor instants ns .remove state).2
  | .foreign request => (state.1, (server.serve request state.2).2)

/-- What is left after all that has happened. -/
def history (occurrences : List Occurrence) (state : Nat × (ObjectKey → Cell)) :
    Nat × (ObjectKey → Cell) :=
  occurrences.foldl (server.undergo instants ns) state

end History

variable {server : ApiServer Cell} {instants : Nat → Instant} {ns : String} {key : ObjectKey}

section Frame

/-- A dialogue that makes no request about an object leaves it as it is. -/
theorem run_other {α : Type} {session : Session α}
    (hasks : session.Asks fun question =>
      ∀ request, question.request? = some request → request.key? ≠ some key)
    (state : Nat × (ObjectKey → Cell)) :
    (session.run (server.answerTimed instants) state).2.2 key = state.2 key := by
  let kept (world : Nat × (ObjectKey → Cell)) : Prop := world.2 key = state.2 key
  have hstart : kept state := rfl
  refine hasks.run_keeps (fun question hother world (hkept : kept world) => ?_) hstart
  refine Eq.trans ?_ hkept
  rcases answer_cells (instants world.1) question world.2 with hsame | ⟨request, hrequest, hserve⟩
  · exact congrFun hsame key
  · exact (congrFun hserve key).trans (serve_other (hother request hrequest) world.2)

/-- A call for a tenant leaves alone what is kept anywhere but where its objects are. -/
theorem monitor_other {action : MonitoringAction}
    (hmakes : ∀ request, (Call.monitoring ns action).Makes request → request.key? ≠ some key)
    (state : Nat × (ObjectKey → Cell)) :
    (server.monitor instants ns action state).2.2 key = state.2 key := by
  have hasks := (asks_perform 0 (.monitoring ns action)).mono fun question hinvolves =>
    (fun request hrequest => hmakes request (hinvolves.makes hrequest) :
      ∀ request, question.request? = some request → request.key? ≠ some key)
  exact run_other hasks state

theorem monitor_remove_other (hkey : key ∉ keys ns) (state : Nat × (ObjectKey → Cell)) :
    (server.monitor instants ns .remove state).2.2 key = state.2 key := by
  refine monitor_other ?_ state
  rintro request ⟨object, hmem, rfl⟩ heq
  exact hkey (List.mem_map.mpr ⟨object, hmem, Option.some.inj heq⟩)

theorem monitor_apply_other (hkey : key ∉ keys ns) (audit : Bool) (settings : MonitoringSettings)
    (state : Nat × (ObjectKey → Cell)) :
    (server.monitor instants ns (.apply (objects ns audit settings)) state).2.2 key =
      state.2 key := by
  refine monitor_other ?_ state
  rintro request ⟨object, hmem, rfl⟩ heq
  exact hkey (Option.some.inj heq ▸ mem_keys_of_mem_objects hmem)

/-- Elsewhere nothing is different from what it would be without the calls for the tenant. -/
theorem history_other (hkey : key ∉ keys ns) (occurrences : List Occurrence)
    {state other : Nat × (ObjectKey → Cell)} (hsame : state.2 key = other.2 key) :
    (server.history instants ns occurrences state).2 key =
      (server.history instants ns (occurrences.filter Occurrence.isForeign) other).2 key := by
  induction occurrences generalizing state other with
  | nil => exact hsame
  | cons occurrence rest ih =>
      cases occurrence with
      | apply audit settings =>
          exact ih ((monitor_apply_other hkey audit settings state).trans hsame)
      | remove => exact ih ((monitor_remove_other hkey state).trans hsame)
      | foreign request =>
          -- What a request makes of an object depends on that object alone.
          refine ih ?_
          show (server.serve request state.2).2 key = (server.serve request other.2).2 key
          by_cases hrequest : request.key? = some key
          · rw [serve_of_key? hrequest, serve_of_key? hrequest, hsame]
            dsimp only
            rw [Function.update_self, Function.update_self]
          · rw [serve_other hrequest, serve_other hrequest, hsame]

end Frame

section Removal

variable {absent : Cell → Prop}

/-- The answer to the removal of an object at a moment. -/
def farewell (server : ApiServer Cell) (instant : Instant) (key : ObjectKey) (cell : Cell) :
    ApiResponse :=
  instant.fault.getD (server.respond (.delete key) cell).1

/-- An error is all that can be read from the answer to the removal of an object, and it is not for
want of the object. -/
def Hampers (server : ApiServer Cell) (absent : Cell → Prop) (instant : Instant) (key : ObjectKey)
    (cell : Cell) (error : RequestError) : Prop :=
  (server.farewell instant key cell).result (removed anyObject) = .error error ∧
    (instant.fault.isSome ∨ ¬ absent cell)

/-- How a removal ends that is made of these objects in turn. -/
structure Clears (server : ApiServer Cell) (absent : Cell → Prop) (instants : Nat → Instant)
    (keys : List ObjectKey) (before : Nat × (ObjectKey → Cell)) (reply : Reply RequestError Unit)
    (left : Nat × (ObjectKey → Cell)) : Prop where
  gone : reply = .ok () → (∀ moment, before.1 ≤ moment → (instants moment).IsHonest) →
    ∀ key ∈ keys, absent (left.2 key)
  /-- A failure is never that an object is absent. -/
  failed : ∀ error, reply = .failed error → error.isAbsentToWriter = false ∧
    ∃ index key, keys[index]? = some key ∧
      server.Hampers absent (instants (before.1 + index)) key (before.2 key) error
  cancelled : reply = .cancelled →
    ∃ index < keys.length, (instants (before.1 + index)).stopped

/-- The removal of one object. -/
def removal (key : ObjectKey) : Session (Reply RequestError Unit) :=
  Session.write (.delete key) (removed anyObject)

/-- The reply to which an answer to the removal of an object comes down. -/
def verdict (response : ApiResponse) : Reply RequestError Unit :=
  match response.result (removed anyObject) with
  | .ok _ => .ok ()
  | .error error => if error.isAbsentToWriter then .ok () else .failed error

theorem removes_of_verdict {response : ApiResponse} (hok : verdict response = .ok ()) :
    response.Removes := by
  rw [verdict] at hok
  cases hresult : response.result (removed anyObject) with
  | ok value => exact ApiResponse.removes_of_result (Or.inl ⟨value, hresult⟩)
  | error error =>
      rw [hresult] at hok
      dsimp only at hok
      split at hok
      case isTrue habsent => exact ApiResponse.removes_of_result (Or.inr ⟨error, hresult, habsent⟩)
      case isFalse => cases hok

theorem verdict_of_missing {response : ApiResponse} (hrefusal : response.isRefusal)
    (hcode : (Refusal.ofResponse response).code = 404) : verdict response = .ok () := by
  rw [verdict, ApiResponse.result, if_pos hrefusal]
  exact if_pos (decide_eq_true hcode)

theorem verdict_failed {response : ApiResponse} {error : RequestError}
    (hfailed : verdict response = .failed error) :
    response.result (removed anyObject) = .error error ∧ error.isAbsentToWriter = false := by
  rw [verdict] at hfailed
  cases hresult : response.result (removed anyObject) with
  | ok value =>
      rw [hresult] at hfailed
      cases hfailed
  | error found =>
      rw [hresult] at hfailed
      dsimp only at hfailed
      split at hfailed
      · cases hfailed
      case isFalse hpresent =>
        cases hfailed
        exact ⟨rfl, Bool.eq_false_of_not_eq_true hpresent⟩

theorem verdict_ne_cancelled (response : ApiResponse) : verdict response ≠ .cancelled := by
  rw [verdict]
  split
  · nofun
  · split
    · nofun
    · nofun

/-- To remove an object is to ask for it once. -/
theorem removal_eq (key : ObjectKey) :
    removal key = .ask (.attempt (.delete key)) fun (answer : Option ApiResponse) =>
      .done (answer.elim .cancelled verdict) := by
  refine congrArg (Dialogue.ask (ApiQuestion.attempt (.delete key))) (funext fun answer => ?_)
  cases answer with
  | none => rfl
  | some response =>
      rw [Option.elim, verdict, Dialogue.bind, Option.elim]
      cases response.result (removed anyObject) with
      | ok value => rfl
      | error error => rfl

theorem run_removal (key : ObjectKey) (state : Nat × (ObjectKey → Cell)) :
    (removal key).run (server.answerTimed instants) state =
      let answered := server.answer (instants state.1) (.attempt (.delete key)) state.2
      (Option.elim (α := ApiResponse) answered.1 .cancelled verdict, state.1 + 1, answered.2) := by
  rw [removal_eq]
  rfl

/-- Unless the controller is told to stop, there is an answer to the removal of an object. -/
theorem run_removal_of_goes {state : Nat × (ObjectKey → Cell)}
    (hgoes : ¬ (instants state.1).stopped) (key : ObjectKey) :
    let served := server.respond (.delete key) (state.2 key)
    let run := (removal key).run (server.answerTimed instants) state
    run.1 = verdict (server.farewell (instants state.1) key (state.2 key)) ∧
      ((instants state.1).fault = none → run.2.2 key = served.2) := by
  intro served run
  have hrun : run = (removal key).run (server.answerTimed instants) state := rfl
  rw [run_removal, answer, if_neg hgoes, serve_of_key? rfl] at hrun
  rw [hrun]
  refine ⟨rfl, fun hfault => ?_⟩
  rw [hfault]
  exact Function.update_self ..

section Once

variable {state : Nat × (ObjectKey → Cell)}

theorem stopped_of_removal
    (hcancelled : ((removal key).run (server.answerTimed instants) state).1 = .cancelled) :
    (instants state.1).stopped := by
  by_contra hgoes
  obtain ⟨hreply, -⟩ := run_removal_of_goes hgoes key
  exact verdict_ne_cancelled _ (hreply.symm.trans hcancelled)

theorem goes_of_removal
    (hreply : ((removal key).run (server.answerTimed instants) state).1 ≠ .cancelled) :
    ¬ (instants state.1).stopped := by
  intro hstopped
  rw [run_removal, answer, if_pos hstopped] at hreply
  exact hreply rfl

theorem absent_of_removal (hremoves : server.RemovesAtOnce absent)
    (hhonest : (instants state.1).IsHonest)
    (hok : ((removal key).run (server.answerTimed instants) state).1 = .ok ()) :
    absent (((removal key).run (server.answerTimed instants) state).2.2 key) := by
  have hgoes := goes_of_removal (hok.trans_ne nofun)
  obtain ⟨hreply, hleft⟩ := run_removal_of_goes hgoes key
  have hremoved := removes_of_verdict (hreply.symm.trans hok)
  rw [farewell] at hremoved
  cases hfault : (instants state.1).fault with
  | some fault =>
      rw [hfault] at hremoved
      exact absurd hremoved (hhonest fault hfault)
  | none =>
      rw [hfault] at hremoved
      rw [hleft hfault]
      exact hremoves.gone key _ hremoved

/-- That an object is absent is no reason for its removal to fail. -/
theorem cause_of_removal (hremoves : server.RemovesAtOnce absent) {error : RequestError}
    (hfailed : ((removal key).run (server.answerTimed instants) state).1 = .failed error) :
    error.isAbsentToWriter = false ∧
      server.Hampers absent (instants state.1) key (state.2 key) error := by
  have hgoes := goes_of_removal (hfailed.trans_ne nofun)
  obtain ⟨hreply, -⟩ := run_removal_of_goes hgoes key
  obtain ⟨hresult, hpresent⟩ := verdict_failed (hreply.symm.trans hfailed)
  refine ⟨hpresent, hresult, ?_⟩
  cases hfault : (instants state.1).fault with
  | some fault => exact Or.inl rfl
  | none =>
      refine Or.inr fun habsent => ?_
      obtain ⟨hrefusal, hcode⟩ := hremoves.missing key _ habsent
      rw [farewell, hfault, Option.getD_none, verdict_of_missing hrefusal hcode, hfailed] at hreply
      cases hreply

end Once

theorem asks_removal_other {other : ObjectKey} (hne : other ≠ key) :
    (removal other).Asks fun question =>
      ∀ request, question.request? = some request → request.key? ≠ some key := by
  refine Session.asks_write fun request hrequest hkey => ?_
  cases hrequest
  exact hne (Option.some.inj hkey)

theorem run_removals_other {keys : List ObjectKey} (hkey : key ∉ keys)
    (state : Nat × (ObjectKey → Cell)) :
    ((inTurn removal keys).run (server.answerTimed instants) state).2.2 key = state.2 key := by
  refine run_other (asks_inTurn fun other hother => asks_removal_other ?_) state
  rintro rfl
  exact hkey hother

/-- Before the removal of other objects one object more is removed, which leaves them alone. -/
theorem Clears.cons {keys : List ObjectKey} {state first left : Nat × (ObjectKey → Cell)}
    {reply : Reply RequestError Unit} (hmoment : first.1 = state.1 + 1)
    (hkept : ∀ other ∈ keys, first.2 other = state.2 other)
    (hgone : (instants state.1).IsHonest → absent (left.2 key))
    (hrest : server.Clears absent instants keys first reply left) :
    server.Clears absent instants (key :: keys) state reply left where
  gone hok hhonest other hother := by
    rcases List.mem_cons.mp hother with rfl | hother
    · exact hgone (hhonest state.1 le_rfl)
    · refine hrest.gone hok (fun moment hlater => hhonest moment ?_) other hother
      omega
  failed error herror := by
    obtain ⟨hpresent, index, other, hother, hcause⟩ := hrest.failed error herror
    rw [hmoment, hkept other (List.mem_of_getElem? hother), Nat.add_right_comm] at hcause
    exact ⟨hpresent, index + 1, other, hother, hcause⟩
  cancelled hended := by
    obtain ⟨index, hindex, hstopped⟩ := hrest.cancelled hended
    rw [hmoment, Nat.add_right_comm] at hstopped
    exact ⟨index + 1, Nat.succ_lt_succ hindex, hstopped⟩

/-- Objects of different keys that are removed in turn do not get in each other's way. -/
theorem clears_inTurn (hremoves : server.RemovesAtOnce absent) {keys : List ObjectKey}
    (hnodup : keys.Nodup) (state : Nat × (ObjectKey → Cell)) :
    let run := (inTurn removal keys).run (server.answerTimed instants) state
    server.Clears absent instants keys state run.1 run.2 := by
  induction keys generalizing state with
  | nil => exact ⟨fun _ _ key hmem => (List.not_mem_nil hmem).elim, nofun, nofun⟩
  | cons key rest ih =>
      intro run
      obtain ⟨hnotin, hrest⟩ := List.nodup_cons.mp hnodup
      have hrun : run =
        (inTurn removal (key :: rest)).run (server.answerTimed instants) state := rfl
      rw [inTurn, Dialogue.run_bind] at hrun
      let first := (removal key).run (server.answerTimed instants) state
      cases hfirst : first.1 with
      | cancelled =>
          rw [hfirst] at hrun
          rw [hrun]
          exact ⟨nofun, nofun, fun _ => ⟨0, Nat.succ_pos _, stopped_of_removal hfirst⟩⟩
      | failed error =>
          rw [hfirst] at hrun
          rw [hrun]
          refine ⟨nofun, fun other hother => ?_, nofun⟩
          cases hother
          obtain ⟨hpresent, hcause⟩ := cause_of_removal hremoves hfirst
          exact ⟨hpresent, 0, key, rfl, hcause⟩
      | ok done =>
          rw [hfirst] at hrun
          rw [hrun]
          -- What is removed later was not touched yet, and what is gone stays so.
          refine (ih hrest first.2).cons (congrArg (·.2.1) (run_removal key state)) ?_ ?_
          · intro other hother
            refine run_other (asks_removal_other ?_) state
            rintro rfl
            exact hnotin hother
          · intro hhonest
            rw [run_removals_other hnotin]
            exact absent_of_removal hremoves hhonest hfirst

theorem monitoring_remove (ns : String) : monitoring ns .remove = inTurn removal (keys ns) := rfl

theorem clears_monitor (hremoves : server.RemovesAtOnce absent) (state : Nat × (ObjectKey → Cell)) :
    let run := server.monitor instants ns .remove state
    server.Clears absent instants (keys ns) state run.1 run.2 := by
  rw [monitor, monitoring_remove]
  exact clears_inTurn hremoves (nodup_keys ns) state

end Removal

end ApiServer

/-- However the objects of a tenant were written and removed before, and wherever each attempt came
to its end, a removal that succeeds leaves nothing of them.  To everything else it is as if there
had been no such attempts.  And a removal never fails because objects are absent. -/
theorem monitoring_is_undone {Cell : Type} {server : ApiServer Cell} {absent : Cell → Prop}
    (hremoves : server.RemovesAtOnce absent) (instants : Nat → Instant) (ns : String)
    (occurrences : List Monitoring.Occurrence) (state : Nat × (ObjectKey → Cell)) :
    let before := server.history instants ns occurrences state
    let removal := server.monitor instants ns .remove before
    ((∀ moment, before.1 ≤ moment → (instants moment).IsHonest) → removal.1 = .ok () →
      ∀ audit settings, ∀ object ∈ Monitoring.objects ns audit settings,
        absent (removal.2.2 ⟨object.kind, some ns, object.name⟩)) ∧
    (∀ key, key ∉ Monitoring.keys ns →
      let foreign := occurrences.filter Monitoring.Occurrence.isForeign
      removal.2.2 key = (server.history instants ns foreign state).2 key) ∧
    (∀ error, removal.1 = .failed error → error.isAbsentToWriter = false ∧
      ∃ index key, (Monitoring.keys ns)[index]? = some key ∧
        server.Hampers absent (instants (before.1 + index)) key (before.2 key) error) ∧
    (removal.1 = .cancelled →
      ∃ index < (Monitoring.keys ns).length, (instants (before.1 + index)).stopped) := by
  intro before removal
  obtain ⟨hgone, hfailed, hcancelled⟩ := ApiServer.clears_monitor hremoves before
  refine ⟨fun hhonest hok audit settings object hmem => ?_, fun key hkey => ?_, hfailed,
    hcancelled⟩
  · exact hgone hok hhonest _ (Monitoring.mem_keys_of_mem_objects hmem)
  · exact (ApiServer.monitor_remove_other hkey before).trans
      (ApiServer.history_other hkey occurrences rfl)

section Sample

/-- The server that keeps objects as they are written removes them at once. -/
theorem ApiServer.plain_removesAtOnce : plain.RemovesAtOnce (· = none) where
  gone key cell _ := by cases cell <;> rfl
  missing key cell habsent := by
    subst habsent
    exact ⟨rfl, Simulation.code_notFound key.path⟩

/-- The second request fails. -/
def Instant.hitch (moment : Nat) : Instant :=
  if moment = 1 then { calm with fault := some (Simulation.refusal 500 "InternalError" "") }
  else calm

def ObjectKey.sampleToken : ObjectKey := ⟨.secret, some "logs", "token"⟩

/-- The rules of a tenant are written, but not what follows them.  Then somebody leaves a token. -/
def Monitoring.sampleOccurrences : List Occurrence :=
  [.apply true Settings.standard.monitoring, .foreign (.apply .sampleToken .null)]

theorem sample_is_undone :
    let before := ApiServer.plain.history Instant.hitch "logs" Monitoring.sampleOccurrences
      (0, fun _ => none)
    let removal := ApiServer.plain.monitor Instant.hitch "logs" .remove before
    (before.2 ⟨.prometheusRule, some "logs", Monitoring.objectName⟩).isSome ∧
    before.2 ⟨.scrapeConfig, some "logs", Monitoring.objectName⟩ = none ∧
    (∀ audit settings, ∀ object ∈ Monitoring.objects "logs" audit settings,
      removal.2.2 ⟨object.kind, some "logs", object.name⟩ = none) ∧
    removal.2.2 .sampleToken = some .null := by
  intro before removal
  obtain ⟨hgone, hother, -⟩ := monitoring_is_undone ApiServer.plain_removesAtOnce Instant.hitch
    "logs" Monitoring.sampleOccurrences (0, fun _ => none)
  have hmoment : before.1 = 2 := by decide +kernel
  have hhonest (moment : Nat) (hlater : before.1 ≤ moment) : (Instant.hitch moment).IsHonest := by
    have hcalm : Instant.hitch moment = .calm := if_neg (by omega)
    rw [hcalm]
    nofun
  refine ⟨by decide +kernel, by decide +kernel, ?_, ?_⟩
  · exact hgone hhonest (by decide +kernel)
  · rw [hother .sampleToken (by decide)]
    rfl

end Sample

end LogForwarding
