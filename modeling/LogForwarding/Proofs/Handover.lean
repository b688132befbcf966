import LogForwarding.Proofs.Interleaving
import LogForwarding.Proofs.Objects
import LogForwarding.Proofs.OptOut
import LogForwarding.Proofs.Removal

/-!
How a tenant is handed over to another control plane.  A migration removes the configuration only
once the nodes were told to keep everything, and after a migration that has succeeded nothing more is
done for the tenant than to let go of its record.
-/

namespace LogForwarding

open Actuator Controller

/-- The bundle with the configuration of the tenant of a namespace. -/
def configurationKey (ns : String) : ObjectKey := ⟨.bundle, some ns, configurationBundle⟩

theorem configurationKey_ne_recordKey (ns name : String) :
    configurationKey ns ≠ recordKey ns name := by
  intro heq
  have hkind : ResourceKind.bundle = ResourceKind.record := congrArg ObjectKey.kind heq
  exact absurd hkind (by decide)

/-- The nodes keep everything when this bundle goes away. -/
def NodeBundle.KeepsNodes (bundle : Json) : Prop :=
  (bundle.get? "spec").bind (·.get? "keepObjects") = some (.bool true)

/-- The status that is kept of a record says that its nodes were handed over. -/
def TenantRecord.SaysMigrating (value : Json) : Prop :=
  (value.get? "status").bind (·.get? "phase") = some Phase.migrating.toJson

theorem NodeBundle.keepsNodes_merge (bundle : Json) :
    KeepsNodes (Json.merge keepChange bundle) := by
  rw [KeepsNodes, keepChange, Json.get?_merge, if_pos rfl, if_neg (by simp [Json.object]),
    Option.bind_some, Json.get?_merge, if_pos rfl, if_neg (by simp)]
  exact congrArg some (Json.merge_of_ne_obj (by simp) _)

namespace TenantRecord

/-- To store the status of a record that was handed over is to say so, whatever was said before. -/
theorem saysMigrating_mergeStatus {status : RecordStatus} (hphase : status.phase = some .migrating)
    (value : Json) : SaysMigrating (Json.merge (statusChange status) value) := by
  have hmember : ("phase", Phase.migrating.toJson) ∈ statusMembers status := by
    apply mem_statusMembers
    simp [RecordStatus.members, hphase]
  have hmem := (Dictionary.mem_ofList (nodup_statusMembers status)).mpr hmember
  obtain ⟨others, hvalues, -⟩ := Json.valuesOf_mergeMembers
    (Dictionary.nodup_keys_ofList (nodup_statusMembers status)) hmem (by simp [Phase.toJson])
    ((value.get? "status").getD .null).members
  rw [SaysMigrating, statusChange, Json.get?_merge, if_pos rfl, if_neg (by simp [Json.object]),
    Option.bind_some, Json.merge_object, Json.get?_eq_find?, Json.members_obj,
    Dictionary.find?_eq_head?_valuesOf, hvalues]
  exact congrArg some (Json.merge_of_ne_obj (by simp [Phase.toJson]) _)

/-- What becomes of the finalizers of a record does not concern its status. -/
theorem get?_status_of_patch {operations : List PatchOperation} (hon : OnFinalizers operations)
    (key : ObjectKey) (value : Json) :
    ((ApiRequest.patch key operations).change value).get? "status" = value.get? "status" := by
  rw [ApiRequest.change]
  cases hpatch : Json.patchAll operations value with
  | none => rfl
  | some changed =>
      obtain ⟨change, place, hlocal, hchange⟩ := hon hpatch
      exact hlocal.get?_changeAt hchange (by simp)

/-- A record that is read is in the phase that is said. -/
theorem StoredAs.phase?_of_says {record : TenantRecord} {value : Json}
    (hstored : record.StoredAs value) (hsaid : SaysMigrating value) :
    record.phase? = some .migrating := by
  obtain ⟨status, hstatus, hphase⟩ := Option.bind_eq_some_iff.mp hsaid
  have hread := hstored.nullable_status
  rw [← Json.get?_eq_find?, hstatus, Option.getD_some] at hread
  cases status with
  | obj members =>
      rw [Decoder.nullable_of_ne (by simp)] at hread
      cases hdecode : RecordStatus.decode (.obj members) with
      | error mismatch => simp [hdecode, Except.map] at hread
      | ok found =>
          rw [hdecode] at hread
          have hmember := nullable_head_of_reads (RecordStatus.decode_obj_ok_iff.mp hdecode).1
          rw [← Json.members_obj members, ← Json.get?_eq_find?, hphase] at hmember
          rw [phase?, ← Except.ok.inj hread, Option.bind_some]
          exact (Except.ok.inj hmember).symm
  | _ => cases hphase

end TenantRecord

section Migration

/-- No call of a migration makes a bundle that is kept one that is not. -/
theorem asks_of_migrate (settings : Settings) (record : TenantRecord) (ns : String) : Act.Asks
    (fun call => ∀ request, call.Makes request → request.Upholds NodeBundle.KeepsNodes)
    (transit settings record ns .migrate) := by
  rw [transit, migrate_eq]
  refine Course.asks ?_
  intro move hmem call hcall request hmakes
  simp only [handoverCourse, withdrawalCourse, cleanupCourse, endCourse, List.cons_append,
    List.nil_append, List.mem_cons, List.not_mem_nil, or_false] at hmem
  rcases hmem with rfl | rfl | rfl | rfl | rfl | rfl | rfl
  all_goals cases hcall
  · obtain rfl := hmakes
    exact fun bundle _ => NodeBundle.keepsNodes_merge bundle
  · obtain rfl := hmakes
    trivial
  · obtain rfl := hmakes
    exact fun bundle hkeeps => hkeeps
  · obtain rfl := hmakes
    trivial
  · obtain ⟨object, -, rfl⟩ := hmakes
    trivial

variable {settings : Settings} {visit : Visit} {ns name : String}

/-- A migration removes nothing unless it began by making the nodes keep everything. -/
theorem Visit.keeps_first (hheld : visit.HeldBy settings) (hnamed : visit.record.Named ns name)
    (hplan : Transition.plan visit.record = .migrate) :
    (∀ exchange ∈ visit.exchanges, exchange.1.request? ≠ some (.delete (configurationKey ns))) ∨
    ∃ response rest, visit.exchanges =
        ⟨.attempt (.merge (configurationKey ns) NodeBundle.keepChange), some response⟩ :: rest ∧
      (¬ response.isRefusal ∨ (Refusal.ofResponse response).code = 404) := by
  obtain ⟨cared, hcared, hfound⟩ := Dialogue.held_interpret.mp hheld
  -- Only a call can remove anything, and there is no other call when the first one has failed.
  have hnever (hcalls : ∀ made ∈ Care.callsOf cared,
      made.1 = .channel ns configurationBundle .keep) :
      ∀ exchange ∈ visit.exchanges,
        exchange.1.request? ≠ some (.delete (configurationKey ns)) := by
    intro exchange hmem hdelete
    rcases asked_of_found hfound hmem with ⟨made, hmade, hinvolves⟩ | hasked
    · rw [hcalls made hmade] at hinvolves
      cases hinvolves.makes hdelete
    · have hkey := (isAbout_of_held hnamed hcared hasked).key?_eq hdelete
      exact configurationKey_ne_recordKey ns name (Option.some.inj hkey)
  by_cases hguarded : visit.record.Guarded
  · obtain ⟨conduct, rfl, -⟩ := exists_conduct hnamed hguarded hcared
    have hcalls := conduct.held
    rw [hplan] at hcalls
    rcases Act.held_bind.mp hcalls with ⟨first, rest, ⟨⟩, status, hsplit, hkeep, -⟩ |
      ⟨error, hkeep, -⟩
    · obtain ⟨rfl, -⟩ := Act.held_call_ok.mp hkeep
      rw [Conduct.exchanges, Conduct.carriedOut, hsplit] at hfound
      obtain ⟨part, others, hexchanges, hpart, -⟩ := hfound
      have hkept : (ApiCalls.perform settings.cleanup.pollInterval.toNat
        (.channel ns configurationBundle .keep)).Held part (.ok ()) := hpart
      obtain ⟨response, rfl, hresponse⟩ := ApiCalls.held_keep_ok hkept
      exact Or.inr ⟨response, others, hexchanges, hresponse⟩
    · obtain ⟨reply, hone, -, -⟩ := Act.held_call.mp hkeep
      refine Or.inl (hnever fun made hmade => ?_)
      rw [conduct.callsOf_exchanges, hone, List.mem_singleton] at hmade
      rw [hmade]
  · refine Or.inl (hnever fun made hmade => ?_)
    rcases held_unguarded hnamed hguarded hcared with ⟨-, rfl⟩ | ⟨-, response, rfl⟩
    · cases hmade
    · cases hmade

end Migration

/-- All that is asked for a record that was handed over: its state is reported, and it is let go when
it is being deleted.  Without the finalizer, that is added or there is nothing to do. -/
inductive Idle (ns name : String) (record : TenantRecord) : List (Exchange ApiQuestion.Answer) → Prop
  | gone (hguarded : ¬ record.Guarded) (hdeleting : record.deleting) : Idle ns name record []
  | guarded (hguarded : ¬ record.Guarded) (hdeleting : ¬ record.deleting) (response : ApiResponse) :
      Idle ns name record
        [⟨.request (.patch (recordKey ns name) (addFinalizer record.metadata.finalizers)), response⟩]
  | reported (hguarded : record.Guarded) {status : RecordStatus}
      (hphase : status.phase = some .migrating) (time : String) {response : ApiResponse}
      (hstays : ¬ (record.deleting ∧ Granted response)) :
      Idle ns name record
        [⟨.now, time⟩,
         ⟨.request (.mergeStatus (recordKey ns name) (statusChange status)), response⟩]
  | released (hguarded : record.Guarded) {status : RecordStatus}
      (hphase : status.phase = some .migrating) (time : String) {response : ApiResponse}
      (hdeleting : record.deleting) (hgranted : Granted response) (position : Nat)
      (answer : ApiResponse) :
      Idle ns name record
        [⟨.now, time⟩,
         ⟨.request (.mergeStatus (recordKey ns name) (statusChange status)), response⟩,
         ⟨.request (.patch (recordKey ns name) (removeFinalizer position)), answer⟩]

section Retained

variable {settings : Settings} {ns name : String}

/-- What becomes of the metadata of a record does not concern its status. -/
theorem upholds_saysMigrating_patch (key : ObjectKey) {operations : List PatchOperation}
    (hon : OnFinalizers operations) :
    (ApiRequest.patch key operations).Upholds TenantRecord.SaysMigrating := by
  intro value hsaid
  rw [TenantRecord.SaysMigrating, TenantRecord.get?_status_of_patch hon]
  exact hsaid

theorem upholds_saysMigrating_annotation (key : ObjectKey) :
    (ApiRequest.merge key annotationChange).Upholds TenantRecord.SaysMigrating := by
  intro value hsaid
  rw [TenantRecord.SaysMigrating, ApiRequest.change, annotationChange, Json.get?_merge,
    if_neg (by simp)]
  exact hsaid

/-- What is changed at the end of a look is the metadata of the record. -/
theorem Controller.Ending.upholds_saysMigrating {ending : Ending} {key : ObjectKey} {interval : Nat}
    {asked : List (Exchange ApiQuestion.Answer)}
    (hfound : Dialogue.Found (Care.find interval) (ending.exchanges key) asked)
    {exchange : Exchange ApiQuestion.Answer} (hmem : exchange ∈ asked) {request : ApiRequest}
    (hrequest : exchange.1.request? = some request) :
    request.Upholds TenantRecord.SaysMigrating := by
  cases ending with
  | nothing =>
      obtain rfl := hfound
      cases hmem
  | answered answer =>
      obtain ⟨_, rfl, rfl⟩ := found_apiExchange.mp hfound
      rw [List.mem_singleton.mp hmem] at hrequest
      cases hrequest
      exact upholds_saysMigrating_annotation _
  | released position answer =>
      obtain ⟨_, rfl, rfl⟩ := found_apiExchange.mp hfound
      rw [List.mem_singleton.mp hmem] at hrequest
      cases hrequest
      exact upholds_saysMigrating_patch _ (onFinalizers_removeFinalizer position)

/-- Nothing is done for a record that was handed over but to report its state. -/
theorem Controller.held_runTransition_retained {record : TenantRecord} (hnamed : record.Named ns name)
    (hplan : Transition.plan record = .retain) {exchanges : List (Exchange Inquiry.Answer)}
    {outcome : Except ReconcileError Requeue}
    (hheld : (runTransition settings record ns).Held exchanges outcome) :
    ∃ status time response, status.phase = some .migrating ∧
      exchanges = [Care.apiExchange ⟨.now, time⟩,
        Care.changeExchange (.mergeStatus (recordKey ns name) (statusChange status)) response] ∧
      (Granted response ↔ ∃ requeue, outcome = .ok requeue) := by
  obtain ⟨made, result, status, time, response, ending, hmade, rfl, hend⟩ :=
    held_runTransition hnamed hheld
  rw [hplan] at hmade
  obtain ⟨rfl, rfl, rfl⟩ := Act.held_pure.mp hmade
  have hphase (time : String) : (report record (Transition.plan record) (.ok ()) time
      (record.status.getD .initial)).phase = some .migrating := by
    rw [report_phase, TenantRecord.phase_getD_initial]
    exact TenantRecord.phase?_of_plan_retain hplan
  refine ⟨_, time, response, hphase time, ?_⟩
  rcases hend with ⟨rfl, error, rfl, hfailed⟩ | ⟨-, hgranted, hconclude⟩
  · refine ⟨rfl, fun hgranted => absurd ⟨rfl, hgranted⟩ hfailed, ?_⟩
    rintro ⟨requeue, hok⟩
    cases hok
  · rw [hplan] at hconclude
    obtain ⟨rfl, rfl⟩ := hconclude
    exact ⟨rfl, fun _ => ⟨none, rfl⟩, fun _ => hgranted⟩

/-- What is held for a record that was handed over and still carries the finalizer. -/
theorem Controller.held_retained {record : TenantRecord} (hnamed : record.Named ns name)
    (hguarded : record.Guarded) (hplan : Transition.plan record = .retain)
    {exchanges : List (Exchange Inquiry.Answer)} {outcome : Except ReconcileError Requeue}
    (hheld : (care settings record).Held exchanges outcome) :
    ∃ status time response ending, status.phase = some .migrating ∧
      exchanges = Care.apiExchange ⟨.now, time⟩ ::
        Care.changeExchange (.mergeStatus (recordKey ns name) (statusChange status)) response ::
          ending ∧
      (¬ (record.deleting ∧ Granted response) ∧ ending = [] ∨
        (record.deleting ∧ Granted response) ∧ ∃ position answer,
          ending = [Care.changeExchange (.patch (recordKey ns name) (removeFinalizer position))
            answer]) := by
  obtain ⟨run, between, hrun, hrest⟩ := held_guarded hnamed hguarded hheld
  obtain ⟨status, time, response, hphase, rfl, hgranted⟩ :=
    held_runTransition_retained hnamed hplan hrun
  rcases hrest with ⟨rfl, -, hstays⟩ | ⟨hdeleting, hok, position, answer, rfl⟩
  · refine ⟨status, time, response, [], hphase, rfl, Or.inl ⟨fun hboth => ?_, rfl⟩⟩
    exact hstays ⟨hboth.1, hgranted.mp hboth.2⟩
  · exact ⟨status, time, response, _, hphase, rfl,
      Or.inr ⟨⟨hdeleting, hgranted.mpr hok⟩, position, answer, rfl⟩⟩

/-- A visit to a record that was handed over is idle. -/
theorem Visit.idle {visit : Visit} (hheld : visit.HeldBy settings)
    (hnamed : visit.record.Named ns name) (hplan : Transition.plan visit.record = .retain) :
    Idle ns name visit.record visit.exchanges := by
  obtain ⟨cared, hcared, hfound⟩ := Dialogue.held_interpret.mp hheld
  by_cases hguarded : visit.record.Guarded
  · obtain ⟨status, time, response, ending, hphase, rfl, hending⟩ :=
      held_retained hnamed hguarded hplan hcared
    obtain ⟨_, heq, hstoring⟩ := found_apiExchange.mp hfound
    obtain ⟨_, rfl, hrest⟩ := found_apiExchange.mp hstoring
    rw [heq]
    rcases hending with ⟨hstays, rfl⟩ | ⟨⟨hdeleting, hgranted⟩, position, answer, rfl⟩
    · obtain rfl := hrest
      exact .reported hguarded hphase time hstays
    · obtain ⟨_, rfl, rfl⟩ := found_apiExchange.mp hrest
      exact .released hguarded hphase time hdeleting hgranted position answer
  · rcases held_unguarded hnamed hguarded hcared with ⟨hdeleting, rfl⟩ | ⟨hdeleting, response, rfl⟩
    · rw [show visit.exchanges = [] from hfound]
      exact .gone hguarded hdeleting
    · obtain ⟨_, heq, rfl⟩ := found_apiExchange.mp hfound
      rw [heq]
      exact .guarded hguarded hdeleting response

/-- What is asked for a record that was handed over does not say otherwise of it. -/
theorem Idle.upholds {record : TenantRecord} {exchanges : List (Exchange ApiQuestion.Answer)}
    (hidle : Idle ns name record exchanges) {exchange : Exchange ApiQuestion.Answer}
    (hmem : exchange ∈ exchanges) {request : ApiRequest}
    (hrequest : exchange.1.request? = some request) :
    request.Upholds TenantRecord.SaysMigrating := by
  have hstore {status : RecordStatus} (hphase : status.phase = some .migrating) :
      (ApiRequest.mergeStatus (recordKey ns name) (statusChange status)).Upholds
        TenantRecord.SaysMigrating :=
    fun value _ => TenantRecord.saysMigrating_mergeStatus hphase value
  cases hidle with
  | gone hguarded hdeleting => cases hmem
  | guarded hguarded hdeleting response =>
      rw [List.mem_singleton.mp hmem] at hrequest
      cases hrequest
      exact upholds_saysMigrating_patch _ (onFinalizers_addFinalizer _)
  | reported hguarded hphase time hstays =>
      simp only [List.mem_cons, List.not_mem_nil, or_false] at hmem
      rcases hmem with rfl | rfl
      · cases hrequest
      · cases hrequest
        exact hstore hphase
  | released hguarded hphase time hdeleting hgranted position answer =>
      simp only [List.mem_cons, List.not_mem_nil, or_false] at hmem
      rcases hmem with rfl | rfl | rfl
      · cases hrequest
      · cases hrequest
        exact hstore hphase
      · cases hrequest
        exact upholds_saysMigrating_patch _ (onFinalizers_removeFinalizer position)

/-- A migration that succeeds has stored that the nodes were handed over, and after that it has only
changed the metadata of the record. -/
theorem Visit.stores_of_migration {visit : Visit} (hheld : visit.HeldBy settings)
    (hnamed : visit.record.Named ns name) (hguarded : visit.record.Guarded)
    (hplan : Transition.plan visit.record = .migrate)
    (hsucceeds : ∃ requeue, visit.outcome = .ok requeue) :
    ∃ first status response rest,
      visit.exchanges = first ++
        ⟨.request (.mergeStatus (recordKey ns name) (statusChange status)), response⟩ :: rest ∧
      status.phase = some .migrating ∧ Granted response ∧
      ∀ exchange ∈ rest, ∀ request, exchange.1.request? = some request →
        request.Upholds TenantRecord.SaysMigrating := by
  obtain ⟨cared, hcared, hfound⟩ := Dialogue.held_interpret.mp hheld
  obtain ⟨conduct, rfl, hsuccess⟩ := exists_conduct hnamed hguarded hcared
  obtain ⟨hresult, hgranted⟩ := hsuccess hsucceeds
  have hcalls := conduct.held
  rw [hplan, hresult, transit, migrate_eq] at hcalls
  obtain ⟨-, hstatus⟩ := Course.held_act_ok hcalls
  rw [Conduct.exchanges, Conduct.carriedOut, List.append_assoc] at hfound
  obtain ⟨first, told, hexchanges, -, htold⟩ := Dialogue.found_append.mp hfound
  obtain ⟨_, rfl, hstoring⟩ := found_apiExchange.mp htold
  obtain ⟨rest, rfl, hrest⟩ := found_apiExchange.mp hstoring
  refine ⟨first ++ [⟨.now, conduct.time⟩],
    report visit.record (Transition.plan visit.record) conduct.result conduct.time conduct.status,
    conduct.response, rest, ?_, ?_, hgranted, ?_⟩
  · rw [hexchanges, List.append_assoc]
    rfl
  · rw [report_phase, hstatus]
    simp [handoverCourse, withdrawalCourse, cleanupCourse, endCourse, Course.noted, Move.noted]
  · intro exchange hmem request hrequest
    exact Ending.upholds_saysMigrating hrest hmem hrequest

end Retained

/-- A visit with what is kept when the record is read, at each exchange and at the end. -/
structure Round where
  record : TenantRecord
  before : Objects
  encounters : List Encounter
  after : Objects
  outcome : Except ReconcileError Requeue

namespace Round

def visit (round : Round) : Visit :=
  ⟨round.record, round.encounters.map (·.exchange), round.outcome⟩

/-- The controller looks after the record as it is kept, while others change what they may. -/
structure HeldBy (settings : Settings) (ns name : String) (round : Round) : Prop where
  stored : ∃ value, round.before (recordKey ns name) = some value ∧ round.record.StoredAs value
  named : round.record.Named ns name
  held : round.visit.HeldBy settings
  lived : Encounters ns name round.before round.encounters round.after

/-- The record carries the finalizer, and its migration is carried out. -/
structure Migrates (round : Round) : Prop where
  guarded : round.record.Guarded
  plan : Transition.plan round.record = .migrate

def Succeeds (round : Round) : Prop :=
  ∃ requeue, round.outcome = .ok requeue

variable {settings : Settings} {round : Round} {ns name : String}

theorem mem_exchanges {encounter : Encounter} (hmem : encounter ∈ round.encounters) :
    encounter.exchange ∈ round.visit.exchanges :=
  List.mem_map_of_mem hmem

/-- Others do not make a bundle that is kept one that is not. -/
theorem keepsNodes_of_undisturbed {before after : Objects} (hothers : Undisturbed ns name before after)
    (hbefore : before.Has (configurationKey ns) NodeBundle.KeepsNodes) :
    after.Has (configurationKey ns) NodeBundle.KeepsNodes :=
  (hothers.bundle configurationBundle).has
    (fun spec => spec.bind (·.get? "keepObjects") = some (.bool true)) hbefore

/-- Nothing that is asked in a migration makes a bundle that is kept one that is not. -/
theorem upholds_keepsNodes (hround : round.HeldBy settings ns name)
    (hplan : Transition.plan round.record = .migrate) {encounter : Encounter}
    (hmem : encounter ∈ round.encounters) (request : ApiRequest)
    (hrequest : encounter.exchange.1.request? = some request)
    (hkey : request.key? = some (configurationKey ns)) : request.Upholds NodeBundle.KeepsNodes := by
  have hcalls := asks_of_migrate settings round.record ns
  rw [← hplan] at hcalls
  rcases Visit.belongsTo_of_mem hround.held hround.named hcalls (mem_exchanges hmem) with
    ⟨call, hupholds, hinvolves⟩ | habout
  · exact hupholds request (hinvolves.makes hrequest)
  · have hrecord := habout.key?_eq hrequest
    rw [hkey] at hrecord
    exact absurd (Option.some.inj hrecord) (configurationKey_ne_recordKey ns name)

/-- Whenever a migration removes the configuration, it is kept on the nodes. -/
theorem keepsNodes_of_removal (hround : round.HeldBy settings ns name)
    (hplan : Transition.plan round.record = .migrate) {encounter : Encounter}
    (hmem : encounter ∈ round.encounters)
    (hremoval : encounter.exchange.1.request? = some (.delete (configurationKey ns))) :
    encounter.objects.Has (configurationKey ns) NodeBundle.KeepsNodes := by
  rcases Visit.keeps_first hround.held hround.named hplan with hnever |
    ⟨response, rest, hexchanges, hresponse⟩
  · exact absurd hremoval (hnever _ (mem_exchanges hmem))
  · obtain ⟨first, later, hencounters, hfirst, -⟩ := List.map_eq_cons_iff.mp hexchanges
    have hlived : Encounters ns name round.before ([] ++ first :: later) round.after := by
      rw [List.nil_append, ← hencounters]
      exact hround.lived
    have hestablished : ∀ left, first.exchange.1.Leaves first.exchange.2 first.objects left →
        left.Has (configurationKey ns) NodeBundle.KeepsNodes := by
      rw [hfirst]
      intro left hleaves
      exact ApiRequest.Serves.has hleaves hresponse NodeBundle.keepsNodes_merge rfl
    have hasked : ∀ other ∈ later, ∀ request, other.exchange.1.request? = some request →
        request.key? = some (configurationKey ns) → request.Upholds NodeBundle.KeepsNodes := by
      intro other hother
      have hmem : other ∈ round.encounters := by
        rw [hencounters]
        exact List.mem_cons_of_mem first hother
      exact upholds_keepsNodes hround hplan hmem
    obtain ⟨-, hall⟩ := hlived.has_from keepsNodes_of_undisturbed hestablished hasked
    rw [hencounters] at hmem
    rcases List.mem_cons.mp hmem with rfl | hlater
    · rw [hfirst] at hremoval
      cases hremoval
    · exact hall encounter hlater

/-- Others do not say otherwise of a record that was handed over. -/
theorem saysMigrating_of_undisturbed {before after : Objects}
    (hothers : Undisturbed ns name before after)
    (hbefore : before.Has (recordKey ns name) TenantRecord.SaysMigrating) :
    after.Has (recordKey ns name) TenantRecord.SaysMigrating :=
  hothers.record.has
    (fun status => status.bind (·.get? "phase") = some Phase.migrating.toJson) hbefore

/-- A record that was handed over still is after a visit that is idle. -/
theorem saysMigrating_of_idle (hround : round.HeldBy settings ns name)
    (hidle : Idle ns name round.record round.visit.exchanges)
    (hbefore : round.before.Has (recordKey ns name) TenantRecord.SaysMigrating) :
    round.after.Has (recordKey ns name) TenantRecord.SaysMigrating := by
  refine (hround.lived.has saysMigrating_of_undisturbed ?_ hbefore).1
  intro encounter hmem request hrequest _
  exact hidle.upholds (mem_exchanges hmem) hrequest

/-- After a migration has succeeded the record says that the nodes were handed over. -/
theorem saysMigrating_of_migration (hround : round.HeldBy settings ns name)
    (hmigrates : round.Migrates) (hsucceeds : round.Succeeds) :
    round.after.Has (recordKey ns name) TenantRecord.SaysMigrating := by
  obtain ⟨_, status, response, _, hexchanges, hphase, ⟨answered, hanswered⟩, hupholds⟩ :=
    Visit.stores_of_migration hround.held hround.named hmigrates.guarded hmigrates.plan hsucceeds
  obtain ⟨first, _, hencounters, -, hlast⟩ := List.map_eq_append_iff.mp hexchanges
  obtain ⟨encounter, rest, rfl, hencounter, rfl⟩ := List.map_eq_cons_iff.mp hlast
  have hlived := hround.lived
  rw [hencounters] at hlived
  refine (hlived.has_from saysMigrating_of_undisturbed ?_ ?_).1
  · rw [hencounter]
    intro left hleaves
    exact ApiRequest.Serves.has hleaves (Or.inl (ApiResponse.not_isRefusal_of_result hanswered))
      (TenantRecord.saysMigrating_mergeStatus hphase) rfl
  · intro other hmem request hrequest _
    exact hupholds _ (List.mem_map_of_mem hmem) request hrequest

end Round

/-- A migration is asked for, and deletion by force is not. -/
structure TenantRecord.StaysMigrated (record : TenantRecord) : Prop where
  step : record.migrationStep? = some .migrate
  not_forced : ¬ record.forceDeleteRequested

theorem TenantRecord.StaysMigrated.plan_eq {record : TenantRecord} (hstays : record.StaysMigrated)
    (hphase : record.phase? = some .migrating) : Transition.plan record = .retain := by
  rw [Transition.plan, if_neg hstays.not_forced, hstays.step]
  simp [hphase]

/-- Rounds follow each other, each of them on what the one before has left. -/
inductive Rounds (settings : Settings) (ns name : String) : Objects → List Round → Objects → Prop
  | nil (objects : Objects) : Rounds settings ns name objects [] objects
  | cons {round : Round} {rest : List Round} {stop : Objects}
      (hround : round.HeldBy settings ns name) (hrest : Rounds settings ns name round.after rest stop) :
      Rounds settings ns name round.before (round :: rest) stop

namespace Rounds

variable {settings : Settings} {ns name : String} {start stop : Objects}

theorem heldBy {rounds : List Round} (hrun : Rounds settings ns name start rounds stop) :
    ∀ round ∈ rounds, round.HeldBy settings ns name := by
  induction hrun with
  | nil objects => simp
  | cons hround hrest ih =>
      intro other hmem
      rcases List.mem_cons.mp hmem with rfl | hmem
      · exact hround
      · exact ih other hmem

theorem drop {earlier later : List Round}
    (hrun : Rounds settings ns name start (earlier ++ later) stop) :
    ∃ middle, Rounds settings ns name middle later stop := by
  induction earlier generalizing start with
  | nil => exact ⟨start, hrun⟩
  | cons round rest ih =>
      cases hrun with
      | cons hround hrest => exact ih hrest

/-- Once the record says that the nodes were handed over, rounds are idle as long as a migration is
asked for. -/
theorem idle {later rest : List Round}
    (hrun : Rounds settings ns name start (later ++ rest) stop)
    (hstart : start.Has (recordKey ns name) TenantRecord.SaysMigrating)
    (hstays : ∀ round ∈ later, round.record.StaysMigrated) :
    ∀ round ∈ later, Idle ns name round.record round.visit.exchanges := by
  induction later generalizing start with
  | nil => simp
  | cons round others ih =>
      cases hrun with
      | cons hround hrest =>
          obtain ⟨value, hvalue, hstored⟩ := hround.stored
          have hphase := hstored.phase?_of_says (hstart value hvalue)
          have hplan := (hstays round List.mem_cons_self).plan_eq hphase
          have hidle := Visit.idle hround.held hround.named hplan
          have hafter := Round.saysMigrating_of_idle hround hidle hstart
          intro other hmem
          rcases List.mem_cons.mp hmem with rfl | hmem
          · exact hidle
          · exact ih hrest hafter (fun round hmem => hstays round (List.mem_cons_of_mem _ hmem)) other
              hmem

end Rounds

/-- However often a record is looked after and whatever fails: a migration only ever removes the
configuration when it is kept on the nodes, and after a migration that has succeeded nothing is asked
for the record, as long as a migration is asked for and deletion by force is not, but to report its
state and to let go of it when it is being deleted. -/
theorem handover_is_safe {settings : Settings} {ns name : String} {start stop : Objects}
    {rounds : List Round} (hrun : Rounds settings ns name start rounds stop) :
    (∀ round ∈ rounds, Transition.plan round.record = .migrate →
      ∀ encounter ∈ round.encounters,
        encounter.exchange.1.request? = some (.delete (configurationKey ns)) →
          encounter.objects.Has (configurationKey ns) NodeBundle.KeepsNodes) ∧
    ∀ earlier round later rest, rounds = earlier ++ round :: (later ++ rest) →
      round.Migrates → round.Succeeds → (∀ other ∈ later, other.record.StaysMigrated) →
        ∀ other ∈ later, Idle ns name other.record other.visit.exchanges := by
  constructor
  · intro round hmem hplan encounter hencounter hremoval
    exact Round.keepsNodes_of_removal (hrun.heldBy round hmem) hplan hencounter hremoval
  · rintro earlier round later rest rfl hmigrates hsucceeds hstays
    obtain ⟨middle, hfrom⟩ := hrun.drop
    cases hfrom with
    | cons hround hrest =>
        exact hrest.idle (Round.saysMigrating_of_migration hround hmigrates hsucceeds) hstays

section Sample

/-- The round in which a record is looked after by itself, and then is changed by others. -/
def Round.undisturbed (settings : Settings) (record : TenantRecord) (before : Objects)
    (edit : Objects → Objects) : Round where
  record := record
  before := before
  encounters := (reconcile settings record).encountersWith (ApiServer.plain.answer .calm) before
  after := edit ((reconcile settings record).run (ApiServer.plain.answer .calm) before).2
  outcome := ((reconcile settings record).run (ApiServer.plain.answer .calm) before).1

theorem Round.undisturbed_heldBy {settings : Settings} {record : TenantRecord} {before : Objects}
    {edit : Objects → Objects} {ns name : String} {value : Json}
    (hvalue : before (recordKey ns name) = some value) (hstored : record.StoredAs value)
    (hnamed : record.Named ns name) (hedit : ∀ objects, Undisturbed ns name objects (edit objects)) :
    (undisturbed settings record before edit).HeldBy settings ns name where
  stored := ⟨value, hvalue, hstored⟩
  named := hnamed
  held := by
    rw [Visit.HeldBy, visit, undisturbed, Dialogue.map_encountersWith]
    exact Dialogue.held_run _ _ _
  lived := Encounters.of_run ApiServer.plain_leaves _ _ (hedit _)

/-- A record that is to be migrated, and the bundle with its configuration. -/
def Objects.sample : Objects := fun key =>
  if key = recordKey "tenant" "rsyslog-relp" then
    some (TenantRecord.sampleAskingStored .migrate)
  else if key = configurationKey "tenant" then some NodeBundle.sampleHealthy
  else none

/-- The record is marked for deletion. -/
def Objects.markSample (objects : Objects) : Objects :=
  Function.update objects (recordKey "tenant" "rsyslog-relp")
    ((objects (recordKey "tenant" "rsyslog-relp")).map
      (Json.merge (Json.object [("metadata", Json.object
        [("deletionTimestamp", .str "2024-05-01T10:00:00Z")])])))

theorem Objects.undisturbed_markSample (objects : Objects) :
    Undisturbed "tenant" "rsyslog-relp" objects objects.markSample where
  bundle bundle := by
    rw [markSample, Function.update_of_ne]
    · exact .refl _ _
    · intro heq
      have hkind : ResourceKind.bundle = ResourceKind.record := congrArg ObjectKey.kind heq
      exact absurd hkind (by decide)
  record := by
    intro value hvalue
    rw [markSample, Function.update_self] at hvalue
    obtain ⟨old, hold, rfl⟩ := Option.map_eq_some_iff.mp hvalue
    refine ⟨old, hold, ?_⟩
    rw [Json.get?_merge, if_neg (by simp)]

/-- The round in which that record is migrated, after which it is marked for deletion. -/
def Round.sampleMigration : Round :=
  .undisturbed .standard (.sampleAsking .migrate) .sample .markSample

/-- The record as it is then. -/
def TenantRecord.sampleMigrated : TenantRecord :=
  ⟨{ (sampleAsking .migrate).metadata with deleting := true }, some sampleDocument,
    some ⟨some .migrating, none, none, false,
      some ⟨.migrate, .succeeded, Transition.migrate.success, ""⟩, none⟩⟩

/-- The round in which it is released. -/
def Round.sampleRelease : Round :=
  .undisturbed .standard .sampleMigrated sampleMigration.after id

theorem Round.sampleMigration_heldBy :
    sampleMigration.HeldBy .standard "tenant" "rsyslog-relp" :=
  undisturbed_heldBy rfl ⟨_, rfl, by decide +kernel⟩ ⟨rfl, rfl, by decide⟩
    Objects.undisturbed_markSample

theorem TenantRecord.sampleMigrated_storedAs :
    ∃ value, Round.sampleMigration.after (recordKey "tenant" "rsyslog-relp") = some value ∧
      sampleMigrated.StoredAs value := by
  have hread : ((Round.sampleMigration.after (recordKey "tenant" "rsyslog-relp")).any fun value =>
      value.members ≠ [] ∧ decode value = .ok sampleMigrated) = true := by
    decide +kernel
  obtain ⟨value, hvalue, hread⟩ := (Option.any_eq_true _ _).mp hread
  obtain ⟨hmembers, hdecode⟩ := of_decide_eq_true hread
  refine ⟨value, hvalue, ?_⟩
  cases value with
  | obj members => exact ⟨members, rfl, hdecode⟩
  | _ => exact absurd rfl hmembers

theorem Round.sampleRelease_heldBy : sampleRelease.HeldBy .standard "tenant" "rsyslog-relp" := by
  obtain ⟨value, hvalue, hstored⟩ := TenantRecord.sampleMigrated_storedAs
  exact undisturbed_heldBy hvalue hstored ⟨rfl, rfl, by decide⟩ fun objects => .refl _ _ objects

/-- When the sample is migrated its configuration is removed and kept on the nodes, and when its
record is deleted afterwards nothing else happens but that it is released. -/
theorem sample_hands_over :
    (∃ encounter ∈ Round.sampleMigration.encounters,
      encounter.exchange.1.request? = some (.delete (configurationKey "tenant")) ∧
      encounter.objects.Has (configurationKey "tenant") NodeBundle.KeepsNodes) ∧
    Idle "tenant" "rsyslog-relp" .sampleMigrated Round.sampleRelease.visit.exchanges := by
  have hrun : Rounds .standard "tenant" "rsyslog-relp" .sample
      [Round.sampleMigration, Round.sampleRelease] Round.sampleRelease.after :=
    .cons Round.sampleMigration_heldBy (.cons Round.sampleRelease_heldBy (.nil _))
  obtain ⟨hkeeps, hidle⟩ := handover_is_safe hrun
  have hremoval : some (.delete (configurationKey "tenant")) ∈
      Round.sampleMigration.encounters.map (·.exchange.1.request?) := by
    decide +kernel
  obtain ⟨encounter, hmem, hdelete⟩ := List.mem_map.mp hremoval
  refine ⟨⟨encounter, hmem, hdelete, ?_⟩, ?_⟩
  · exact hkeeps _ List.mem_cons_self rfl encounter hmem hdelete
  · have hsucceeds : Round.sampleMigration.outcome = .ok none := by
      decide +kernel
    refine hidle [] Round.sampleMigration [Round.sampleRelease] [] rfl ⟨by decide, rfl⟩
      ⟨none, hsucceeds⟩ ?_ Round.sampleRelease List.mem_cons_self
    intro other hmem
    rw [List.mem_singleton.mp hmem]
    exact ⟨by decide, by decide⟩

end Sample

end LogForwarding
