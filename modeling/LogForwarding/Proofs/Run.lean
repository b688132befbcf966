import LogForwarding.Proofs.Conduct
import LogForwarding.Proofs.Course
import LogForwarding.Proofs.Record.Stored

/-!
Runs: a record is looked after again and again, and may be edited in between.  Whatever is answered,
a request that is refused and a call that fails change nothing.
-/

namespace LogForwarding

open Controller

/-- The record as the API server keeps it, and what stands in the cluster. -/
structure World where
  record : Json
  deployment : Deployment

/-- What a request that is granted makes of the record it is about.  Operations that cannot be
carried out change nothing. -/
def ApiRequest.change : ApiRequest → Json → Json
  | .merge _ change, record | .mergeStatus _ change, record => Json.merge change record
  | .patch _ operations, record => (Json.patchAll operations record).getD record
  | _, record => record

/-- What an inquiry brings about, as it was answered. -/
def Inquiry.effect : (inquiry : Inquiry) → inquiry.Answer → World → World
  | .call made, answer, world => ⟨world.record, made.effect answer world.deployment⟩
  | .api (.request request), response, world =>
      match ApiResponse.result response TenantRecord.decode with
      | .ok _ => ⟨request.change world.record, world.deployment⟩
      | .error _ => world
  | _, _, world => world

section Effects

variable (world : World)

theorem after_callExchanges (calls : List (Exchange Call.Answer)) :
    Dialogue.after Inquiry.effect (calls.map Care.callExchange) world =
      ⟨world.record, Dialogue.after Call.effect calls world.deployment⟩ := by
  induction calls generalizing world with
  | nil => rfl
  | cons exchange rest ih => exact ih _

theorem effect_of_granted {response : ApiResponse} (hgranted : Granted response)
    (request : ApiRequest) :
    Inquiry.effect (.api (.request request)) response world =
      ⟨request.change world.record, world.deployment⟩ := by
  obtain ⟨record, hrecord⟩ := hgranted
  simp [Inquiry.effect, hrecord]

theorem effect_of_not_granted {response : ApiResponse} (hgranted : ¬ Granted response)
    (request : ApiRequest) : Inquiry.effect (.api (.request request)) response world = world := by
  cases hresult : response.result TenantRecord.decode with
  | ok record => exact absurd ⟨record, hresult⟩ hgranted
  | error error => simp [Inquiry.effect, hresult]

/-- A change of the record is made, or all stays as it is. -/
theorem after_changeExchange (request : ApiRequest) (response : ApiResponse) :
    Dialogue.after Inquiry.effect [Care.changeExchange request response] world =
        ⟨request.change world.record, world.deployment⟩ ∨
      Dialogue.after Inquiry.effect [Care.changeExchange request response] world = world := by
  by_cases hgranted : Granted response
  · exact Or.inl (effect_of_granted world hgranted request)
  · exact Or.inr (effect_of_not_granted world hgranted request)

end Effects

/-- It is still the same record, in the same state of life. -/
structure TenantRecord.SameObject (before after : TenantRecord) : Prop where
  ns_eq : after.metadata.ns = before.metadata.ns
  name_eq : after.metadata.name = before.metadata.name
  deleting_eq : after.deleting = before.deleting

/-- One look after a record. -/
structure Episode where
  before : World
  /-- The record as it was read. -/
  record : TenantRecord
  exchanges : List (Exchange Inquiry.Answer)
  outcome : Except ReconcileError Requeue

namespace Episode

/-- The world that an episode leaves. -/
def after (episode : Episode) : World :=
  Dialogue.after Inquiry.effect episode.exchanges episode.before

/-- The controller holds the episode with the record as it is kept. -/
def HeldBy (settings : Settings) (episode : Episode) : Prop :=
  episode.record.StoredAs episode.before.record ∧
    (care settings episode.record).Held episode.exchanges episode.outcome

/-- The calls of the episode. -/
def calls (episode : Episode) : List (Exchange Call.Answer) :=
  Care.callsOf episode.exchanges

/-- The episode has succeeded. -/
def Succeeds (episode : Episode) : Prop :=
  ∃ requeue, episode.outcome = .ok requeue

/-- What came of the transition was stored. -/
def Stores (episode : Episode) : Prop :=
  ∃ key change response,
    Care.changeExchange (.mergeStatus key change) response ∈ episode.exchanges ∧ Granted response

end Episode

/-- A change of a record by others: its document and its annotations may be anything, and it may be
marked for deletion. -/
def Edit (before after : Json) : Prop :=
  ∃ old new : TenantRecord, old.StoredAs before ∧ new.StoredAs after ∧
    new.metadata.ns = old.metadata.ns ∧ new.metadata.name = old.metadata.name ∧
    new.metadata.finalizers = old.metadata.finalizers ∧ new.status = old.status ∧
    (old.deleting → new.deleting)

/-- A record is looked after again and again, and is edited in between. -/
inductive Run (settings : Settings) (start : World) : List Episode → World → Prop
  | start : Run settings start [] start
  | edit {episodes : List Episode} {world : World} {edited : Json}
      (hrun : Run settings start episodes world) (hedit : Edit world.record edited) :
      Run settings start episodes ⟨edited, world.deployment⟩
  | look {episodes : List Episode} {episode : Episode}
      (hrun : Run settings start episodes episode.before) (hheld : episode.HeldBy settings) :
      Run settings start (episodes ++ [episode]) episode.after

namespace TenantRecord

theorem StoredAs.unique {record other : TenantRecord} {value : Json}
    (hrecord : record.StoredAs value) (hother : other.StoredAs value) : record = other := by
  obtain ⟨_, -, hdecode⟩ := hrecord
  obtain ⟨_, -, hdecode'⟩ := hother
  exact Except.ok.inj (hdecode.symm.trans hdecode')

theorem SameObject.refl (record : TenantRecord) : record.SameObject record :=
  ⟨rfl, rfl, rfl⟩

theorem SameObject.named {before after : TenantRecord} (hsame : before.SameObject after)
    {ns name : String} (hnamed : before.Named ns name) : after.Named ns name :=
  ⟨hsame.ns_eq.trans hnamed.ns_eq, hsame.name_eq.trans hnamed.name_eq, hnamed.name_ne⟩

end TenantRecord

namespace Controller.Conduct

variable {settings : Settings} {record : TenantRecord} {ns name : String}

/-- The status that the transition finds, and what stands in the cluster before it. -/
def start (_ : Conduct settings record ns name) (deployment : Deployment) : Progress :=
  ⟨record.status.getD .initial, deployment⟩

/-- The status that the transition leaves, and what stands in the cluster after it. -/
def stop (conduct : Conduct settings record ns name) (deployment : Deployment) : Progress :=
  ⟨conduct.status, Dialogue.after Call.effect conduct.calls deployment⟩

/-- A conduct ends where the course of its transition ends or stops, or fails before. -/
theorem taken (conduct : Conduct settings record ns name) (deployment : Deployment) :
    (∃ reads course rest, conduct.calls = reads ++ rest ∧
      Actuator.Takes settings record ns (record.status.getD .initial) reads
        (Transition.plan record) course ∧
      ∀ {wanted}, Course.Ensures ns wanted course (conduct.start deployment) →
        wanted conduct.result (conduct.stop deployment)) ∨
    ∃ error, conduct.result = .error error ∧ conduct.stop deployment = conduct.start deployment := by
  rcases Actuator.held_transit conduct.held with
    ⟨reads, course, rest, hcalls, htakes, hsame, hcourse⟩ | ⟨error, hresult, hstatus, hsame⟩
  · refine Or.inl ⟨reads, course, rest, hcalls, htakes, ?_⟩
    intro wanted hensures
    have hwanted := hensures.of_held hcourse
    rw [stop, hcalls, Dialogue.after_append, hsame]
    exact hwanted
  · refine Or.inr ⟨error, hresult, ?_⟩
    rw [stop, start, hstatus, hsame]

/-- What every course of the transition ensures holds when a conduct ends. -/
theorem ensured (conduct : Conduct settings record ns name) (deployment : Deployment)
    {wanted : Except ReconcileError Unit → Progress → Prop}
    (hcourses : ∀ reads course, Actuator.Takes settings record ns (record.status.getD .initial) reads
      (Transition.plan record) course → Course.Ensures ns wanted course (conduct.start deployment))
    (hfail : ∀ error, wanted (.error error) (conduct.start deployment)) :
    wanted conduct.result (conduct.stop deployment) := by
  rcases conduct.taken deployment with ⟨reads, course, -, -, htakes, hensured⟩ |
    ⟨error, hresult, hsame⟩
  · exact hensured (hcourses reads course htakes)
  · rw [hresult, hsame]
    exact hfail error

theorem stop_of_retain (conduct : Conduct settings record ns name)
    (hplan : Transition.plan record = .retain) (deployment : Deployment) :
    conduct.result = .ok () ∧ conduct.stop deployment = conduct.start deployment := by
  have hheld := conduct.held
  rw [hplan] at hheld
  obtain ⟨hcalls, hresult, hstatus⟩ := Act.held_pure.mp hheld
  refine ⟨hresult, ?_⟩
  rw [stop, start, hcalls, hstatus, Dialogue.after_nil]

/-- The status that a record has afterwards: the outcome, if it was stored. -/
structure Leaves (conduct : Conduct settings record ns name) (status : Option RecordStatus) :
    Prop where
  of_granted : Granted conduct.response → ∃ kept, status = some kept ∧
    kept.phase = conduct.status.phase ∧ kept.appliedDigest = conduct.status.appliedDigest ∧
    kept.cleanupPresent = conduct.status.cleanupPresent
  of_not_granted : ¬ Granted conduct.response → status = record.status

variable (conduct : Conduct settings record ns name) {world : World}

/-- When the outcome is stored the calls have had their effect, and of the record nothing but its
status has changed. -/
theorem after_carriedOut_of_granted (hgranted : Granted conduct.response) :
    Dialogue.after Inquiry.effect conduct.carriedOut world =
      ⟨Json.merge conduct.change world.record,
        Dialogue.after Call.effect conduct.calls world.deployment⟩ := by
  rw [carriedOut, Dialogue.after_append, after_callExchanges]
  exact effect_of_granted _ hgranted _

/-- When the outcome is not stored the calls have had their effect, and the record is as it was. -/
theorem after_carriedOut_of_not_granted (hgranted : ¬ Granted conduct.response) :
    Dialogue.after Inquiry.effect conduct.carriedOut world =
      ⟨world.record, Dialogue.after Call.effect conduct.calls world.deployment⟩ := by
  rw [carriedOut, Dialogue.after_append, after_callExchanges]
  exact effect_of_not_granted _ hgranted _

/-- A phase that is there is never taken back. -/
theorem phase?_of_reported_phase
    (hnone : (report record (Transition.plan record) conduct.result conduct.time
      conduct.status).phase = none) : record.phase? = none := by
  rw [report_phase] at hnone
  have hbefore := Actuator.phase_of_held_transit conduct.held hnone
  cases hstatus : record.status with
  | none => simp [TenantRecord.phase?, hstatus]
  | some status =>
      rw [hstatus] at hbefore
      simpa [TenantRecord.phase?, hstatus] using hbefore

/-- When the outcome is stored the calls have had their effect, and of the record only the status is
another one. -/
theorem after_carriedOut (hstored : record.StoredAs world.record) :
    (Dialogue.after Inquiry.effect conduct.carriedOut world).deployment =
        Dialogue.after Call.effect conduct.calls world.deployment ∧
      ∃ status, { record with status := status }.StoredAs
          (Dialogue.after Inquiry.effect conduct.carriedOut world).record ∧
        conduct.Leaves status := by
  by_cases hgranted : Granted conduct.response
  · rw [conduct.after_carriedOut_of_granted hgranted]
    refine ⟨rfl, ?_⟩
    obtain ⟨kept, hkept, hphase, hdigest, hcleanup⟩ :=
      hstored.mergeStatus conduct.phase?_of_reported_phase
    refine ⟨some kept, hkept, fun _ => ⟨kept, rfl, ?_, ?_, ?_⟩, fun hnot => absurd hgranted hnot⟩
    · rw [hphase, report_phase]
    · rw [hdigest, report_appliedDigest]
    · rw [hcleanup, report_cleanupPresent]
  · rw [conduct.after_carriedOut_of_not_granted hgranted]
    exact ⟨rfl, record.status, hstored, fun hyes => absurd hyes hgranted, fun _ => rfl⟩

/-- What is changed at the end is neither the status of the record nor what stands in the cluster, and
only a release takes the finalizer away. -/
theorem after_ending {kept : TenantRecord} (hkept : kept.StoredAs world.record) :
    (Dialogue.after Inquiry.effect (conduct.ending.exchanges (recordKey ns name)) world).deployment =
        world.deployment ∧
      ∃ last : TenantRecord, last.StoredAs
          (Dialogue.after Inquiry.effect (conduct.ending.exchanges (recordKey ns name))
            world).record ∧
        kept.SameObject last ∧ last.status = kept.status ∧
        (last.metadata.finalizers = kept.metadata.finalizers ∨
          ∃ position response, conduct.ending = .released position response) := by
  cases hending : conduct.ending with
  | nothing => exact ⟨rfl, kept, hkept, .refl _, rfl, Or.inl rfl⟩
  | answered response =>
      rw [Ending.exchanges]
      rcases after_changeExchange world _ response with hafter | hafter <;> rw [hafter]
      · exact ⟨rfl, _, hkept.mergeAnnotation, ⟨rfl, rfl, rfl⟩, rfl, Or.inl rfl⟩
      · exact ⟨rfl, kept, hkept, .refl _, rfl, Or.inl rfl⟩
  | released position response =>
      rw [Ending.exchanges]
      rcases after_changeExchange world _ response with hafter | hafter <;> rw [hafter]
      · refine ⟨rfl, ?_⟩
        rw [ApiRequest.change]
        cases hpatch : Json.patchAll (removeFinalizer position) world.record with
        | none => exact ⟨kept, hkept, .refl _, rfl, Or.inl rfl⟩
        | some changed =>
            obtain ⟨place, hchanged⟩ := hkept.removeFinalizer hpatch
            exact ⟨_, hchanged, ⟨rfl, rfl, rfl⟩, rfl, Or.inr ⟨_, _, rfl⟩⟩
      · exact ⟨rfl, kept, hkept, .refl _, rfl, Or.inl rfl⟩

/-- At the end the record is still the same one, and it carries the finalizer unless it was
released. -/
theorem after_exchanges (hstored : record.StoredAs world.record) :
    (Dialogue.after Inquiry.effect conduct.exchanges world).deployment =
        Dialogue.after Call.effect conduct.calls world.deployment ∧
      ∃ kept : TenantRecord, kept.StoredAs
          (Dialogue.after Inquiry.effect conduct.exchanges world).record ∧
        record.SameObject kept ∧ conduct.Leaves kept.status ∧
        (kept.metadata.finalizers = record.metadata.finalizers ∨
          ∃ position response, conduct.ending = .released position response) := by
  obtain ⟨hdeployment, status, hkept, hleaves⟩ := conduct.after_carriedOut hstored
  obtain ⟨hsame, last, hlast, hobject, hstatus, hfinalizers⟩ := conduct.after_ending hkept
  rw [exchanges, Dialogue.after_append]
  refine ⟨hsame.trans hdeployment, last, hlast, ?_, ?_, hfinalizers⟩
  · exact ⟨hobject.ns_eq, hobject.name_eq, hobject.deleting_eq⟩
  · rw [hstatus]
    exact hleaves

end Controller.Conduct

namespace Episode

variable {settings : Settings} {episode : Episode} {ns name : String}

/-- An episode without the finalizer leaves all as it was, but for the finalizer. -/
theorem after_of_unguarded (hheld : episode.HeldBy settings)
    (hnamed : episode.record.Named ns name) (hguarded : ¬ episode.record.Guarded) :
    episode.after.deployment = episode.before.deployment ∧
      ∃ kept : TenantRecord, kept.StoredAs episode.after.record ∧
        episode.record.SameObject kept ∧ kept.status = episode.record.status := by
  obtain ⟨hstored, hcare⟩ := hheld
  rcases held_unguarded hnamed hguarded hcare with ⟨-, hnil⟩ | ⟨-, response, hone⟩
  · rw [after, hnil]
    exact ⟨rfl, episode.record, hstored, .refl _, rfl⟩
  · rw [after, hone]
    rcases after_changeExchange episode.before _ response with hafter | hafter <;> rw [hafter]
    · refine ⟨rfl, ?_⟩
      rw [ApiRequest.change]
      cases hpatch : Json.patchAll (addFinalizer episode.record.metadata.finalizers)
        episode.before.record with
      | none => exact ⟨episode.record, hstored, .refl _, rfl⟩
      | some changed => exact ⟨_, hstored.addFinalizer hpatch, ⟨rfl, rfl, rfl⟩, rfl⟩
    · exact ⟨rfl, episode.record, hstored, .refl _, rfl⟩

theorem calls_of_conduct (conduct : Conduct settings episode.record ns name)
    (hexchanges : episode.exchanges = conduct.exchanges) : episode.calls = conduct.calls := by
  rw [calls, hexchanges, Conduct.callsOf_exchanges]

theorem stores_iff_granted (conduct : Conduct settings episode.record ns name)
    (hexchanges : episode.exchanges = conduct.exchanges) :
    episode.Stores ↔ Granted conduct.response := by
  simp only [Stores, hexchanges, Conduct.mem_exchanges_mergeStatus]
  constructor
  · rintro ⟨key, change, response, ⟨-, -, rfl⟩, hgranted⟩
    exact hgranted
  · intro hgranted
    exact ⟨_, _, _, ⟨rfl, rfl, rfl⟩, hgranted⟩

/-- An episode leaves the same record. -/
theorem exists_after (hheld : episode.HeldBy settings) (hnamed : episode.record.Named ns name) :
    ∃ kept : TenantRecord, kept.StoredAs episode.after.record ∧
      episode.record.SameObject kept := by
  by_cases hguarded : episode.record.Guarded
  · obtain ⟨conduct, hexchanges, -⟩ := exists_conduct hnamed hguarded hheld.2
    obtain ⟨-, kept, hkept, hsame, -⟩ := conduct.after_exchanges hheld.1
    rw [after, hexchanges]
    exact ⟨kept, hkept, hsame⟩
  · obtain ⟨-, kept, hkept, hsame, -⟩ := after_of_unguarded hheld hnamed hguarded
    exact ⟨kept, hkept, hsame⟩

end Episode

/-- The record that is kept has this name. -/
def World.Named (world : World) (ns name : String) : Prop :=
  ∃ record : TenantRecord, record.StoredAs world.record ∧ record.Named ns name

/-- The record that is kept has this name and was never looked at. -/
def World.Fresh (world : World) (ns name : String) : Prop :=
  ∃ record : TenantRecord, record.StoredAs world.record ∧ record.Named ns name ∧
    record.status = none

namespace Run

variable {settings : Settings} {start world : World} {episodes : List Episode}

/-- What holds at first, and is kept by edits and by episodes, holds after every run. -/
theorem invariant (kept : World → Prop) (hrun : Run settings start episodes world)
    (hstart : kept start)
    (hedit : ∀ world edited, kept world → Edit world.record edited →
      kept ⟨edited, world.deployment⟩)
    (hlook : ∀ episode ∈ episodes, episode.HeldBy settings → kept episode.before →
      kept episode.after) : kept world := by
  induction hrun with
  | start => exact hstart
  | edit hrun hchange ih => exact hedit _ _ (ih hlook) hchange
  | look hrun hheld ih =>
      refine hlook _ (by simp) hheld (ih ?_)
      intro episode hmem
      exact hlook episode (List.mem_append_left _ hmem)

/-- Every episode of a run is held, and follows the run of the episodes before it. -/
theorem before_of_mem {earlier later : List Episode} {episode : Episode}
    (hrun : Run settings start episodes world) (hsplit : episodes = earlier ++ episode :: later) :
    Run settings start earlier episode.before ∧ episode.HeldBy settings := by
  induction hrun generalizing later with
  | start => simp at hsplit
  | edit hrun hchange ih => exact ih hsplit
  | @look others last hrun hheld ih =>
      rcases List.eq_nil_or_concat later with rfl | ⟨rest, other, rfl⟩
      · obtain ⟨rfl, hlast⟩ := List.append_inj' hsplit rfl
        cases hlast
        exact ⟨hrun, hheld⟩
      · rw [List.concat_eq_append, ← List.cons_append, ← List.append_assoc] at hsplit
        obtain ⟨hothers, -⟩ := List.append_inj' hsplit rfl
        exact ih hothers

/-- The record keeps its name all the time. -/
theorem named {ns name : String} (hrun : Run settings start episodes world)
    (hfresh : start.Fresh ns name) : world.Named ns name := by
  refine hrun.invariant (World.Named · ns name) ?_ ?_ ?_
  · obtain ⟨record, hstored, hnamed, -⟩ := hfresh
    exact ⟨record, hstored, hnamed⟩
  · rintro world edited ⟨record, hstored, hnamed⟩ ⟨old, new, hold, hnew, hns, hname, -⟩
    obtain rfl := hstored.unique hold
    exact ⟨new, hnew, hns.trans hnamed.ns_eq, hname.trans hnamed.name_eq, hnamed.name_ne⟩
  · rintro episode - hheld ⟨record, hstored, hnamed⟩
    obtain rfl := hstored.unique hheld.1
    obtain ⟨kept, hkept, hsame⟩ := Episode.exists_after hheld hnamed
    exact ⟨kept, hkept, hsame.named hnamed⟩

end Run

section Unhindered

/-- The answers in a world in which nothing fails. -/
def Inquiry.unhindered (cluster : Option Cluster) (stored : Json) :
    (inquiry : Inquiry) → Unit → inquiry.Answer × Unit
  | .call (.cluster _), _ => (.ok cluster, ())
  | .call (.secret _ _), _ | .call (.configMap _ _), _ => (.ok none, ())
  | .call (.channel _ _ _), _ | .call (.monitoring _ _), _ => (.ok (), ())
  | .api (.request _), _ => (⟨200, stored⟩, ())
  | .api (.attempt _), _ => (some ⟨200, stored⟩, ())
  | .api (.pause _), _ => (false, ())
  | .api .now, _ => ("", ())

/-- The episode in which nothing fails. -/
def Episode.unhindered (settings : Settings) (cluster : Option Cluster) (before : World)
    (record : TenantRecord) : Episode where
  before := before
  record := record
  exchanges := (care settings record).exchangesWith (Inquiry.unhindered cluster before.record) ()
  outcome := ((care settings record).run (Inquiry.unhindered cluster before.record) ()).1

theorem Episode.unhindered_heldBy {settings : Settings} {cluster : Option Cluster} {before : World}
    {record : TenantRecord} (hstored : record.StoredAs before.record) :
    (unhindered settings cluster before record).HeldBy settings :=
  ⟨hstored, Dialogue.held_run _ _ ()⟩

/-- Where a record is kept, a request that is answered with it is granted. -/
theorem TenantRecord.StoredAs.granted {record : TenantRecord} {stored : Json}
    (hstored : record.StoredAs stored) : Granted ⟨200, stored⟩ := by
  obtain ⟨members, -, hdecode⟩ := hstored
  refine ⟨record, ?_⟩
  rw [ApiResponse.result, if_neg (by simp [ApiResponse.isRefusal]), hdecode]
  rfl

theorem Episode.unhindered_stores {settings : Settings} {cluster : Option Cluster} {before : World}
    {record : TenantRecord} {ns name : String} (hstored : record.StoredAs before.record)
    (hnamed : record.Named ns name) (hguarded : record.Guarded) :
    (unhindered settings cluster before record).Stores := by
  obtain ⟨conduct, hexchanges, -⟩ := exists_conduct hnamed hguarded
    (unhindered_heldBy hstored).2
  refine (stores_iff_granted conduct hexchanges).mpr ?_
  have hmem := conduct.mem_exchanges_mergeStatus.mpr ⟨rfl, rfl, rfl⟩
  rw [← hexchanges] at hmem
  obtain ⟨_, hresponse⟩ := Dialogue.exists_answer_of_mem_exchangesWith hmem
  change conduct.response = ⟨200, before.record⟩ at hresponse
  rw [hresponse]
  exact hstored.granted

/-- A document that asks for the forwarding of grave messages. -/
def TenantRecord.sampleDocument : Json :=
  Json.object
    [("apiVersion", .str documentVersion), ("kind", .str DocumentKind.config.text),
     ("target", .str "10.2.64.54"), ("port", .int 80),
     ("loggingRules", .arr [Json.object [("severity", .int 1)]])]

/-- A record as it is kept when it carries the finalizer. -/
def TenantRecord.sampleStored (deleting : Bool) : Json :=
  Json.object
    [("metadata", Json.object
      ([("name", .str "rsyslog-relp"), ("namespace", .str "tenant"),
        ("finalizers", Json.texts [finalizerName])] ++
       if deleting then [("deletionTimestamp", .str "2024-05-01T10:00:00Z")] else [])),
     ("spec", Json.object [("providerConfig", sampleDocument)])]

/-- The record that is read then. -/
def TenantRecord.sample (deleting : Bool) : TenantRecord :=
  ⟨⟨some "rsyslog-relp", some "tenant", none, [], [finalizerName], deleting⟩, some sampleDocument,
    none⟩

/-- The cluster of that tenant. -/
def Cluster.sample : Cluster :=
  ⟨⟨some "tenant", none, none, [], [], false⟩, ⟨"dev", "logging", "0b7a6b6e", "1.31.4", []⟩⟩

theorem TenantRecord.sample_storedAs (deleting : Bool) :
    (sample deleting).StoredAs (sampleStored deleting) := by
  cases deleting
  · exact ⟨_, rfl, by decide +kernel⟩
  · exact ⟨_, rfl, by decide +kernel⟩

theorem TenantRecord.sample_named (deleting : Bool) :
    (sample deleting).Named "tenant" "rsyslog-relp" :=
  ⟨rfl, rfl, by decide⟩

/-- The first look after that record, when nothing stands yet and nothing fails. -/
def Episode.sample (deleting : Bool) : Episode :=
  .unhindered .standard (some .sample) ⟨TenantRecord.sampleStored deleting, .nothing⟩
    (.sample deleting)

theorem Episode.sample_fresh (deleting : Bool) :
    (sample deleting).before.Fresh "tenant" "rsyslog-relp" :=
  ⟨.sample deleting, TenantRecord.sample_storedAs deleting, TenantRecord.sample_named deleting, rfl⟩

theorem Run.sample (deleting : Bool) :
    Run .standard (Episode.sample deleting).before ([] ++ [Episode.sample deleting])
      (Episode.sample deleting).after :=
  .look .start (Episode.unhindered_heldBy (TenantRecord.sample_storedAs deleting))

end Unhindered

end LogForwarding
