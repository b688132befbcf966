import LogForwarding.Proofs.Act
import LogForwarding.Reconcile.Controller

/-!
Of which parts one look after a record consists: the calls of its transition, the time, the change
of its status, and a change of its metadata that is only made when all before has succeeded.
-/

namespace LogForwarding

namespace Care

variable {α : Type}

/-- A call with its answer as a part of a care. -/
def callExchange (exchange : Exchange Call.Answer) : Exchange Inquiry.Answer :=
  ⟨.call exchange.1, exchange.2⟩

/-- A question about the record with its answer as a part of a care. -/
def apiExchange (exchange : Exchange ApiQuestion.Answer) : Exchange Inquiry.Answer :=
  ⟨.api exchange.1, exchange.2⟩

/-- A change of the record with its answer as a part of a care. -/
def changeExchange (request : ApiRequest) (response : ApiResponse) : Exchange Inquiry.Answer :=
  apiExchange ⟨.request request, response⟩

theorem apiExchange_inj {exchange other : Exchange ApiQuestion.Answer} :
    apiExchange exchange = apiExchange other ↔ exchange = other := by
  constructor
  · intro heq
    injection heq with hquestion hanswer
    injection hquestion with hquestion
    exact Sigma.ext hquestion hanswer
  · exact congrArg apiExchange

/-- The calls among the exchanges of a care. -/
def callsOf (exchanges : List (Exchange Inquiry.Answer)) : List (Exchange Call.Answer) :=
  exchanges.filterMap fun
    | ⟨.call made, answer⟩ => some ⟨made, answer⟩
    | ⟨.api _, _⟩ => none

theorem callsOf_append (first rest : List (Exchange Inquiry.Answer)) :
    callsOf (first ++ rest) = callsOf first ++ callsOf rest :=
  List.filterMap_append

theorem callsOf_map_callExchange (calls : List (Exchange Call.Answer)) :
    callsOf (calls.map callExchange) = calls := by
  induction calls with
  | nil => rfl
  | cons exchange rest ih => exact congrArg (exchange :: ·) ih

theorem held_ofCalls {calls : Dialogue Call Call.Answer α} {exchanges : List (Exchange Inquiry.Answer)}
    {outcome : α} :
    (ofCalls calls).Held exchanges outcome ↔
      ∃ made, calls.Held made outcome ∧ exchanges = made.map callExchange :=
  Dialogue.held_interpret_query

theorem held_ofSession {session : Session α} {exchanges : List (Exchange Inquiry.Answer)}
    {outcome : α} :
    (ofSession session).Held exchanges outcome ↔
      ∃ asked, session.Held asked outcome ∧ exchanges = asked.map apiExchange :=
  Dialogue.held_interpret_query

end Care

namespace Controller

open Care

/-- Whether a request was granted. -/
def Granted (response : ApiResponse) : Prop :=
  ∃ record, response.result TenantRecord.decode = .ok record

/-- A change of a named record is one request. -/
theorem held_change {key : ObjectKey} (hkey : key.name ≠ "") {request : ApiRequest}
    {exchanges : List (Exchange Inquiry.Answer)} {outcome : Except RequestError Unit} :
    (change key request).Held exchanges outcome ↔
      ∃ response, exchanges = [changeExchange request response] ∧
        outcome = (response.result TenantRecord.decode).map fun _ => () := by
  rw [change, if_neg hkey, Dialogue.held_bind]
  constructor
  · rintro ⟨first, rest, result, rfl, hfirst, rfl, rfl⟩
    obtain ⟨asked, ⟨response, others, rfl, rfl, rfl⟩, rfl⟩ := held_ofSession.mp hfirst
    exact ⟨response, rfl, rfl⟩
  · rintro ⟨response, rfl, rfl⟩
    exact ⟨_, [], response.result TenantRecord.decode, rfl,
      held_ofSession.mpr ⟨[⟨.request request, response⟩], ⟨response, [], rfl, rfl, rfl⟩, rfl⟩,
      rfl, rfl⟩

/-- When nothing is asked after a change of a named record, there is one exchange. -/
theorem exchanges_of_last_change {α : Type} {key : ObjectKey} (hkey : key.name ≠ "")
    {request : ApiRequest} {next : Except RequestError Unit → Care α}
    (hnext : ∀ result, ∃ value, next result = .done value)
    {exchanges : List (Exchange Inquiry.Answer)} {outcome : α}
    (hheld : (change key request >>= next).Held exchanges outcome) :
    ∃ response, exchanges = [changeExchange request response] := by
  obtain ⟨first, rest, result, rfl, hchange, hrest⟩ := Dialogue.held_bind.mp hheld
  obtain ⟨response, rfl, -⟩ := (held_change hkey).mp hchange
  obtain ⟨value, hvalue⟩ := hnext result
  rw [hvalue] at hrest
  exact ⟨response, by rw [hrest.1, List.append_nil]⟩

section Report

variable (record : TenantRecord) (transition : Transition) (result : Except ReconcileError Unit)
  (time : String) (status : RecordStatus)

@[simp] theorem report_phase :
    (report record transition result time status).phase = status.phase := by
  cases result <;> rfl

@[simp] theorem report_appliedDigest :
    (report record transition result time status).appliedDigest = status.appliedDigest := by
  cases result <;> rfl

@[simp] theorem report_cleanupPresent :
    (report record transition result time status).cleanupPresent = status.cleanupPresent := by
  cases result <;> rfl

end Report

/-- What is changed in the metadata of a record after its transition. -/
inductive Ending where
  | nothing
  /-- No step of a migration is asked for any more. -/
  | answered (response : ApiResponse)
  /-- The finalizer is taken away from its position. -/
  | released (position : Nat) (response : ApiResponse)

/-- The change of the metadata as an exchange. -/
def Ending.exchanges (key : ObjectKey) : Ending → List (Exchange Inquiry.Answer)
  | .nothing => []
  | .answered response => [changeExchange (.merge key annotationChange) response]
  | .released position response => [changeExchange (.patch key (removeFinalizer position)) response]

/-- One look after a record that carries the finalizer. -/
structure Conduct (settings : Settings) (record : TenantRecord) (ns name : String) where
  /-- The calls of the transition. -/
  calls : List (Exchange Call.Answer)
  /-- What came of the transition. -/
  result : Except ReconcileError Unit
  /-- The status that the transition has left. -/
  status : RecordStatus
  time : String
  /-- The answer to the change of the status. -/
  response : ApiResponse
  ending : Ending
  held : Act.Held (Actuator.transit settings record ns (Transition.plan record))
    (record.status.getD .initial) calls result status
  /-- Nothing follows but a success that is stored. -/
  result_of_ending : ending ≠ .nothing → result = .ok () ∧ Granted response
  /-- A record that is being deleted is released, and no other. -/
  deleting_of_released : ∀ position response, ending = .released position response →
    record.deleting
  not_deleting_of_answered : ∀ response, ending = .answered response → ¬ record.deleting

namespace Conduct

variable {settings : Settings} {record : TenantRecord} {ns name : String}

/-- The change after which the outcome is stored. -/
def change (conduct : Conduct settings record ns name) : Json :=
  statusChange
    (report record (Transition.plan record) conduct.result conduct.time conduct.status)

/-- The exchanges until the outcome is stored. -/
def carriedOut (conduct : Conduct settings record ns name) : List (Exchange Inquiry.Answer) :=
  conduct.calls.map callExchange ++
    [apiExchange ⟨.now, conduct.time⟩,
     changeExchange (.mergeStatus (recordKey ns name) conduct.change) conduct.response]

/-- All exchanges in their order. -/
def exchanges (conduct : Conduct settings record ns name) : List (Exchange Inquiry.Answer) :=
  conduct.carriedOut ++ conduct.ending.exchanges (recordKey ns name)

/-- The calls of the transition are all the calls that are made. -/
theorem callsOf_exchanges (conduct : Conduct settings record ns name) :
    callsOf conduct.exchanges = conduct.calls := by
  rw [exchanges, carriedOut, callsOf_append, callsOf_append, callsOf_map_callExchange]
  cases conduct.ending <;> simp [Ending.exchanges, callsOf, changeExchange, apiExchange]

/-- The questions about the record are those for the time and for the change of its status, and what
is changed at the end. -/
theorem apiExchange_mem_iff (conduct : Conduct settings record ns name)
    {exchange : Exchange ApiQuestion.Answer} :
    apiExchange exchange ∈ conduct.exchanges ↔
      exchange = ⟨.now, conduct.time⟩ ∨
      exchange = ⟨.request (.mergeStatus (recordKey ns name) conduct.change), conduct.response⟩ ∨
      apiExchange exchange ∈ conduct.ending.exchanges (recordKey ns name) := by
  rw [exchanges, carriedOut]
  simp only [List.mem_append, List.mem_cons, List.mem_map, List.not_mem_nil, or_false,
    changeExchange, apiExchange_inj]
  constructor
  · rintro ((⟨call, -, heq⟩ | htime | hchange) | hending)
    · cases heq
    · exact Or.inl htime
    · exact Or.inr (Or.inl hchange)
    · exact Or.inr (Or.inr hending)
  · rintro (htime | hchange | hending)
    · exact Or.inl (Or.inr (Or.inl htime))
    · exact Or.inl (Or.inr (Or.inr hchange))
    · exact Or.inr hending

theorem mem_exchanges_mergeStatus (conduct : Conduct settings record ns name) {key : ObjectKey}
    {change : Json} {response : ApiResponse} :
    changeExchange (.mergeStatus key change) response ∈ conduct.exchanges ↔
      key = recordKey ns name ∧ change = conduct.change ∧ response = conduct.response := by
  rw [changeExchange, apiExchange_mem_iff]
  constructor
  · rintro (htime | hchange | hending)
    · cases htime
    · cases hchange
      exact ⟨rfl, rfl, rfl⟩
    · cases hcase : conduct.ending with
      | nothing =>
          rw [hcase] at hending
          cases hending
      | answered answer =>
          rw [hcase, Ending.exchanges, List.mem_singleton] at hending
          cases hending
      | released position answer =>
          rw [hcase, Ending.exchanges, List.mem_singleton] at hending
          cases hending
  · rintro ⟨rfl, rfl, rfl⟩
    exact Or.inr (Or.inl rfl)

/-- Only a release takes the finalizer away. -/
theorem exists_released_of_mem (conduct : Conduct settings record ns name) {key : ObjectKey}
    {operations : List PatchOperation} {response : ApiResponse}
    (hmem : changeExchange (.patch key operations) response ∈ conduct.exchanges) :
    ∃ position answer, conduct.ending = .released position answer := by
  rw [changeExchange, apiExchange_mem_iff] at hmem
  rcases hmem with htime | hchange | hending
  · cases htime
  · cases hchange
  · cases hcase : conduct.ending with
    | nothing =>
        rw [hcase] at hending
        cases hending
    | answered answer =>
        rw [hcase, Ending.exchanges, List.mem_singleton] at hending
        cases hending
    | released position answer => exact ⟨position, answer, rfl⟩

end Conduct

end Controller

/-- The record has this name in this namespace, as every record has that is kept. -/
structure TenantRecord.Named (record : TenantRecord) (ns name : String) : Prop where
  ns_eq : record.metadata.ns = some ns
  name_eq : record.metadata.name = some name
  name_ne : name ≠ ""

/-- The record carries the finalizer of the controller. -/
def TenantRecord.Guarded (record : TenantRecord) : Prop :=
  Controller.finalizerName ∈ record.metadata.finalizers

instance (record : TenantRecord) : Decidable record.Guarded :=
  inferInstanceAs (Decidable (_ ∈ _))

namespace Controller

open Care

theorem exists_position_iff {record : TenantRecord} :
    (∃ position, record.metadata.finalizers.findIdx? (· = finalizerName) = some position) ↔
      record.Guarded := by
  rw [TenantRecord.Guarded, ← Option.isSome_iff_exists]
  simp

/-- What is held when the transition of a record is carried out and its outcome is stored. -/
theorem held_runTransition {settings : Settings} {record : TenantRecord} {ns name : String}
    (hnamed : record.Named ns name) {exchanges : List (Exchange Inquiry.Answer)}
    {outcome : Except ReconcileError Requeue}
    (hheld : (runTransition settings record ns).Held exchanges outcome) :
    ∃ made result status time response ending,
      Act.Held (Actuator.transit settings record ns (Transition.plan record))
        (record.status.getD .initial) made result status ∧
      exchanges = made.map callExchange ++
        [apiExchange ⟨.now, time⟩,
         changeExchange (.mergeStatus (recordKey ns name) (statusChange
           (report record (Transition.plan record) result time status))) response] ++ ending ∧
      ((ending = [] ∧ ∃ error, outcome = .error error ∧ ¬ (result = .ok () ∧ Granted response)) ∨
        result = .ok () ∧ Granted response ∧
          (conclude settings (recordKey ns name) (Transition.plan record)).Held ending outcome) := by
  rw [runTransition, hnamed.name_eq] at hheld
  simp only [Option.getD_some] at hheld
  obtain ⟨_, _, ⟨result, status⟩, rfl, hcalls, hafter⟩ := Dialogue.held_bind.mp hheld
  obtain ⟨made, hmade, rfl⟩ := held_ofCalls.mp hcalls
  obtain ⟨_, _, time, rfl, htime, hstoring⟩ := Dialogue.held_bind.mp hafter
  obtain ⟨asked, hasked, rfl⟩ := held_ofSession.mp htime
  obtain rfl := Dialogue.held_query.mp hasked
  obtain ⟨_, ending, stored, rfl, hstored, hending⟩ := Dialogue.held_bind.mp hstoring
  obtain ⟨response, rfl, rfl⟩ := (held_change hnamed.name_ne).mp hstored
  refine ⟨made, result, status, time, response, ending, ?_, by simp, ?_⟩
  · rw [Actuator.execute, hnamed.ns_eq] at hmade
    exact hmade
  cases result with
  | error error =>
      obtain ⟨rfl, rfl⟩ := hending
      exact Or.inl ⟨rfl, error, rfl, by simp⟩
  | ok done =>
      cases hanswer : response.result TenantRecord.decode with
      | error error =>
          rw [hanswer] at hending
          obtain ⟨rfl, rfl⟩ := hending
          refine Or.inl ⟨rfl, .request error, rfl, ?_⟩
          rintro ⟨-, answered, hanswered⟩
          rw [hanswer] at hanswered
          cases hanswered
      | ok answered =>
          rw [hanswer] at hending
          exact Or.inr ⟨rfl, ⟨answered, hanswer⟩, hending⟩

/-- The success of a transition is concluded with nothing more, or with the answer to a restore. -/
theorem held_conclude {settings : Settings} {key : ObjectKey} (hkey : key.name ≠ "")
    {transition : Transition} {ending : List (Exchange Inquiry.Answer)}
    {outcome : Except ReconcileError Requeue}
    (hheld : (conclude settings key transition).Held ending outcome) :
    (ending = [] ∧ ∃ requeue, outcome = .ok requeue) ∨
      transition = .enable true ∧
        ∃ response, ending = [changeExchange (.merge key annotationChange) response] := by
  cases transition with
  | enable restore =>
      cases restore with
      | false =>
          obtain ⟨rfl, rfl⟩ := hheld
          exact Or.inl ⟨rfl, _, rfl⟩
      | true =>
          refine Or.inr ⟨rfl, exchanges_of_last_change hkey ?_ hheld⟩
          intro result
          cases result <;> exact ⟨_, rfl⟩
  | _ =>
      obtain ⟨rfl, rfl⟩ := hheld
      exact Or.inl ⟨rfl, _, rfl⟩

theorem plan_ne_enable_of_deleting {record : TenantRecord} (hdeleting : record.deleting)
    (restore : Bool) : Transition.plan record ≠ .enable restore := by
  rw [Transition.plan, if_pos hdeleting]
  split
  · simp
  · split
    · simp
    · split <;> simp

theorem deleting_of_plan_enable {record : TenantRecord} {restore : Bool}
    (hplan : Transition.plan record = .enable restore) : record.deleting = false := by
  cases hdeleting : record.deleting with
  | false => rfl
  | true => exact absurd hplan (plan_ne_enable_of_deleting hdeleting restore)

/-- To carry out a transition is all there is to a conduct, but for the release of a record that is
being deleted. -/
theorem exists_conduct_of_run {settings : Settings} {record : TenantRecord} {ns name : String}
    (hnamed : record.Named ns name) {exchanges : List (Exchange Inquiry.Answer)}
    {outcome : Except ReconcileError Requeue}
    (hheld : (runTransition settings record ns).Held exchanges outcome) :
    ∃ conduct : Conduct settings record ns name, exchanges = conduct.exchanges ∧
      ((∃ requeue, outcome = .ok requeue) → conduct.result = .ok () ∧ Granted conduct.response) ∧
      (record.deleting → conduct.ending = .nothing) := by
  obtain ⟨made, result, status, time, response, ending, hmade, rfl, hend⟩ :=
    held_runTransition hnamed hheld
  rcases hend with ⟨rfl, error, rfl, -⟩ | ⟨rfl, hgranted, hconclude⟩
  · refine ⟨⟨made, result, status, time, response, .nothing, hmade, by simp, by simp, by simp⟩,
      rfl, ?_, fun _ => rfl⟩
    rintro ⟨requeue, hok⟩
    cases hok
  · rcases held_conclude hnamed.name_ne hconclude with ⟨rfl, -⟩ | ⟨hplan, answer, rfl⟩
    · exact ⟨⟨made, _, status, time, response, .nothing, hmade, by simp, by simp, by simp⟩,
        rfl, fun _ => ⟨rfl, hgranted⟩, fun _ => rfl⟩
    · have hdeleting := deleting_of_plan_enable hplan
      exact ⟨⟨made, _, status, time, response, .answered answer, hmade,
        fun _ => ⟨rfl, hgranted⟩, by simp, by simp [hdeleting]⟩, rfl, fun _ => ⟨rfl, hgranted⟩,
        by simp [hdeleting]⟩

/-- What is held for a record that carries the finalizer is its transition, and its release behind
that if it is being deleted and the transition succeeds. -/
theorem held_guarded {settings : Settings} {record : TenantRecord} {ns name : String}
    (hnamed : record.Named ns name) (hguarded : record.Guarded)
    {exchanges : List (Exchange Inquiry.Answer)} {outcome : Except ReconcileError Requeue}
    (hheld : (care settings record).Held exchanges outcome) :
    ∃ run between, (runTransition settings record ns).Held run between ∧
      ((exchanges = run ∧ outcome = between ∧
          ¬ (record.deleting ∧ ∃ requeue, between = .ok requeue)) ∨
        record.deleting ∧ (∃ requeue, between = .ok requeue) ∧ ∃ position answer,
          exchanges = run ++
            [changeExchange (.patch (recordKey ns name) (removeFinalizer position)) answer]) := by
  obtain ⟨position, hposition⟩ := exists_position_iff.mpr hguarded
  rw [care, hnamed.ns_eq] at hheld
  simp only [reconcileIn, hposition, hnamed.name_eq] at hheld
  cases hdeleting : record.deleting with
  | true =>
      rw [hdeleting] at hheld
      obtain ⟨run, rest, between, rfl, hrun, hrelease⟩ := Dialogue.held_bind.mp hheld
      refine ⟨run, between, hrun, ?_⟩
      cases between with
      | error error =>
          obtain ⟨rfl, rfl⟩ := hrelease
          exact Or.inl ⟨List.append_nil run, rfl, by simp⟩
      | ok requeue =>
          obtain ⟨answer, rfl⟩ := exchanges_of_last_change hnamed.name_ne
            (fun result => by cases result <;> exact ⟨_, rfl⟩) hrelease
          exact Or.inr ⟨rfl, ⟨requeue, rfl⟩, position, answer, rfl⟩
  | false =>
      rw [hdeleting] at hheld
      exact ⟨exchanges, outcome, hheld, Or.inl ⟨rfl, rfl, by simp⟩⟩

/-- To look after a guarded record is to carry out its transition. -/
theorem exists_conduct {settings : Settings} {record : TenantRecord} {ns name : String}
    (hnamed : record.Named ns name) (hguarded : record.Guarded)
    {exchanges : List (Exchange Inquiry.Answer)} {outcome : Except ReconcileError Requeue}
    (hheld : (care settings record).Held exchanges outcome) :
    ∃ conduct : Conduct settings record ns name, exchanges = conduct.exchanges ∧
      ((∃ requeue, outcome = .ok requeue) →
        conduct.result = .ok () ∧ Granted conduct.response) := by
  obtain ⟨run, between, hrun, hrest⟩ := held_guarded hnamed hguarded hheld
  obtain ⟨conduct, rfl, hsuccess, hnothing⟩ := exists_conduct_of_run hnamed hrun
  rcases hrest with ⟨rfl, rfl, -⟩ | ⟨hdeleting, hok, position, answer, rfl⟩
  · exact ⟨conduct, rfl, hsuccess⟩
  · refine ⟨{ conduct with
      ending := .released position answer
      result_of_ending := fun _ => hsuccess hok
      deleting_of_released := fun _ _ _ => hdeleting
      not_deleting_of_answered := by simp }, ?_, fun _ => hsuccess hok⟩
    simp [Conduct.exchanges, Conduct.carriedOut, Conduct.change, Ending.exchanges,
      hnothing hdeleting]

/-- A restore that succeeds has been answered. -/
theorem exists_answered {settings : Settings} {record : TenantRecord} {ns name : String}
    (hnamed : record.Named ns name) (hguarded : record.Guarded)
    (hplan : Transition.plan record = .enable true) {exchanges : List (Exchange Inquiry.Answer)}
    {requeue : Requeue} (hheld : (care settings record).Held exchanges (.ok requeue)) :
    ∃ response, changeExchange (.merge (recordKey ns name) annotationChange) response ∈ exchanges ∧
      Granted response := by
  obtain ⟨run, between, hrun, hrest⟩ := held_guarded hnamed hguarded hheld
  rcases hrest with ⟨rfl, rfl, -⟩ | ⟨hdeleting, -⟩
  · obtain ⟨made, result, status, time, response, ending, -, rfl, hend⟩ :=
      held_runTransition hnamed hrun
    rcases hend with ⟨-, error, hfalse, -⟩ | ⟨-, -, hconclude⟩
    · cases hfalse
    · rw [hplan, conclude] at hconclude
      obtain ⟨first, rest, changed, rfl, hchange, hrest⟩ := Dialogue.held_bind.mp hconclude
      obtain ⟨answer, rfl, rfl⟩ := (held_change hnamed.name_ne).mp hchange
      refine ⟨answer, by simp, ?_⟩
      cases hanswer : answer.result TenantRecord.decode with
      | ok kept => exact ⟨kept, hanswer⟩
      | error error =>
          rw [hanswer] at hrest
          cases hrest.2
  · exact absurd hplan (plan_ne_enable_of_deleting hdeleting true)

/-- For a record without the finalizer nothing is done but to add it, unless it is being deleted. -/
theorem held_unguarded {settings : Settings} {record : TenantRecord} {ns name : String}
    (hnamed : record.Named ns name) (hguarded : ¬ record.Guarded)
    {exchanges : List (Exchange Inquiry.Answer)} {outcome : Except ReconcileError Requeue}
    (hheld : (care settings record).Held exchanges outcome) :
    (record.deleting ∧ exchanges = []) ∨ ¬ record.deleting ∧ ∃ response, exchanges =
      [changeExchange (.patch (recordKey ns name) (addFinalizer record.metadata.finalizers))
        response] := by
  have hposition : record.metadata.finalizers.findIdx? (· = finalizerName) = none := by
    rw [← Option.not_isSome_iff_eq_none, Option.isSome_iff_exists, exists_position_iff]
    exact hguarded
  rw [care, hnamed.ns_eq] at hheld
  simp only [reconcileIn, hposition, hnamed.name_eq] at hheld
  by_cases hdeleting : record.deleting
  · rw [hdeleting] at hheld
    exact Or.inl ⟨hdeleting, hheld.1⟩
  · refine Or.inr ⟨hdeleting, ?_⟩
    rw [Bool.not_eq_true] at hdeleting
    rw [hdeleting] at hheld
    refine exchanges_of_last_change hnamed.name_ne ?_ hheld
    intro result
    cases result <;> exact ⟨_, rfl⟩

section Questions

/-- All that is asked while the record at a key is looked after is allowed. -/
structure Admits (settings : Settings) (record : TenantRecord) (ns : String) (key : ObjectKey)
    (allowed : Inquiry → Prop) : Prop where
  call : Act.Asks (fun call => allowed (.call call))
    (Actuator.transit settings record ns (Transition.plan record))
  now : allowed (.api .now)
  stored : ∀ status, allowed (.api (.request (.mergeStatus key (statusChange status))))
  answered : Transition.plan record = .enable true →
    allowed (.api (.request (.merge key annotationChange)))
  guarded : allowed (.api (.request (.patch key (addFinalizer record.metadata.finalizers))))
  released : ∀ position, allowed (.api (.request (.patch key (removeFinalizer position))))

variable {allowed : Inquiry → Prop}

theorem asks_ofCalls {α : Type} {calls : Dialogue Call Call.Answer α}
    (hcalls : calls.Asks fun call => allowed (.call call)) : (Care.ofCalls calls).Asks allowed :=
  hcalls.interpret fun _ hallowed => ⟨hallowed, fun _ => trivial⟩

theorem asks_change {key : ObjectKey} {request : ApiRequest}
    (hallowed : allowed (.api (.request request))) : (change key request).Asks allowed := by
  rw [change]
  split
  · trivial
  · exact ⟨hallowed, fun _ => trivial⟩

variable {settings : Settings} {record : TenantRecord} {ns : String}

theorem asks_conclude {key : ObjectKey} (hadmits : Admits settings record ns key allowed) :
    (conclude settings key (Transition.plan record)).Asks allowed := by
  cases hplan : Transition.plan record with
  | enable restore =>
      cases restore with
      | true =>
          refine Dialogue.Asks.bind (asks_change (hadmits.answered hplan)) ?_
          intro result
          cases result <;> trivial
      | false => trivial
  | _ => trivial

theorem asks_runTransition (hns : record.metadata.ns = some ns)
    (hadmits : Admits settings record ns (recordKey ns (record.metadata.name.getD "")) allowed) :
    (runTransition settings record ns).Asks allowed := by
  refine Dialogue.Asks.bind ?_ ?_
  · rw [Actuator.execute, hns]
    exact asks_ofCalls (hadmits.call _)
  · rintro ⟨result, status⟩
    refine Dialogue.Asks.bind ⟨hadmits.now, fun _ => trivial⟩ fun time => ?_
    refine Dialogue.Asks.bind (asks_change (hadmits.stored _)) ?_
    intro stored
    cases result with
    | error error => trivial
    | ok done =>
        cases stored with
        | error error => trivial
        | ok stored => exact asks_conclude hadmits

/-- What is asked while a record is looked after: what its transition calls for, the time, and
changes of the record itself. -/
theorem asks_care (hadmits : ∀ ns, record.metadata.ns = some ns →
    Admits settings record ns (recordKey ns (record.metadata.name.getD "")) allowed) :
    (care settings record).Asks allowed := by
  rw [care]
  split
  · trivial
  case h_2 ns hns =>
    have hadmits := hadmits ns hns
    have hrun := asks_runTransition hns hadmits
    simp only [reconcileIn]
    split
    · exact hrun
    · trivial
    · trivial
    case h_4 name _ _ hname =>
      rw [hname] at hadmits
      refine Dialogue.Asks.bind (asks_change hadmits.guarded) ?_
      intro result
      cases result <;> trivial
    case h_5 position name _ _ hname =>
      rw [hname] at hadmits
      refine Dialogue.Asks.bind hrun ?_
      intro outcome
      cases outcome with
      | error error => trivial
      | ok requeue =>
          refine Dialogue.Asks.bind (asks_change (hadmits.released position)) ?_
          intro result
          cases result <;> trivial

end Questions

end Controller

end LogForwarding
