import LogForwarding.Proofs.Run

/-!
What is read of a status after the controller has stored it.  A status is stored as a change of the
one that was stored before: what the change does not name stays.  All of it is read back as it was
reported, but for the field that a failure names: a failure that names none is read with the field
that the failure before it has named.
-/

namespace LogForwarding

open Controller

/-- What stands in the place of a status: nothing, or what the controller has stored there last, over
whatever stood there before. -/
def WrittenStatus (value : Json) : Prop :=
  value = .null ∨
    ∃ status older, value = Json.merge (Json.object (statusMembers status)) older

namespace WrittenStatus

variable {value : Json}

theorem store (status : RecordStatus) (older : Json) :
    WrittenStatus (Json.merge (Json.object (statusMembers status)) older) :=
  Or.inr ⟨status, older, rfl⟩

theorem ne_arr (hwritten : WrittenStatus value) (items : List Json) : value ≠ .arr items := by
  rcases hwritten with rfl | ⟨status, older, rfl⟩
  · simp
  · rw [Json.merge_object]
    simp

/-- A failure is stored as an object. -/
theorem lastError_ne_arr (hwritten : WrittenStatus value) (items : List Json) :
    value.members.find? "lastError" ≠ some (.arr items) := by
  rcases hwritten with rfl | ⟨status, older, rfl⟩
  · simp [Json.members]
  · have hnodup := nodup_statusMembers status
    have hkeys := Dictionary.nodup_keys_ofList hnodup
    rw [Json.merge_object, Json.members_obj, Dictionary.find?_eq_head?_valuesOf]
    cases herror : status.lastError with
    | none =>
        have hmem : ("lastError", Json.null) ∈ statusMembers status :=
          null_mem_statusMembers (by decide) (by simp [RecordStatus.members, herror])
        rw [Json.valuesOf_mergeMembers_null hkeys ((Dictionary.mem_ofList hnodup).mpr hmem)]
        simp
    | some error =>
        have hmem : ("lastError", error.toJson) ∈ statusMembers status :=
          mem_statusMembers (by simp [RecordStatus.members, herror])
        have hnull : error.toJson ≠ .null := by simp [LastError.toJson, Json.ofFields, Json.object]
        obtain ⟨others, hvalues, -⟩ := Json.valuesOf_mergeMembers hkeys
          ((Dictionary.mem_ofList hnodup).mpr hmem) hnull older.members
        rw [hvalues, LastError.toJson, Json.ofFields, Json.merge_object]
        simp

end WrittenStatus

namespace TenantRecord

/-- What stands in the place of the status of a record that is kept. -/
def statusOf (value : Json) : Json :=
  (value.members.find? "status").getD .null

/-- The field that the failure names that is stored in a record. -/
def errorPlace? (record : TenantRecord) : Option String :=
  (record.status.bind RecordStatus.lastError).bind LastError.fieldPath

/-- A status that is stored over one that the controller has stored is read over that one. -/
theorem StoredAs.mergeStatus_of_written {record : TenantRecord} {value : Json}
    (hstored : record.StoredAs value) (hwritten : WrittenStatus (statusOf value))
    (status : RecordStatus) :
    { record with
      status := some (status.over (record.status.getD .initial) record.errorPlace?) }.StoredAs
      (Json.merge (statusChange status) value) := by
  obtain ⟨base, place, hdecode, -, hbase, hplace⟩ :=
    RecordStatus.exists_decode_merge_over status hstored.nullable_status
  have hbase := hbase hwritten.ne_arr
  have hplace := hplace hwritten.lastError_ne_arr
  have herror : place = record.errorPlace? := by
    rw [hplace, hbase, errorPlace?]
    cases record.status <;> rfl
  subst herror
  subst hbase
  exact hstored.mergeStatus_of_decode hdecode

/-- To store a status is to write it over the one that stands there. -/
theorem statusOf_mergeStatus (status : RecordStatus) (value : Json) :
    statusOf (Json.merge (statusChange status) value) =
      Json.merge (Json.object (statusMembers status)) (statusOf value) := by
  have hnodup : (Dictionary.keys
      (Dictionary.ofList [("status", Json.object (statusMembers status))])).Nodup :=
    Dictionary.nodup_keys_ofList (by simp)
  have hmem : ("status", Json.object (statusMembers status)) ∈
      Dictionary.ofList [("status", Json.object (statusMembers status))] :=
    List.mem_cons_self
  have hobject : Json.object (statusMembers status) ≠ .null := by simp [Json.object]
  obtain ⟨others, hvalues, -⟩ := Json.valuesOf_mergeMembers hnodup hmem hobject value.members
  rw [statusOf, statusChange, Json.merge_object, Json.members_obj,
    Dictionary.find?_eq_head?_valuesOf, hvalues]
  rfl

theorem statusOf_mergeAnnotation (value : Json) :
    statusOf (Json.merge annotationChange value) = statusOf value := by
  rw [statusOf, annotationChange, Json.merge_object, Json.members_obj,
    Dictionary.find?_eq_head?_valuesOf, Json.valuesOf_mergeMembers_of_notMem
      (by simp [Dictionary.ofList, Dictionary.insert]),
    statusOf, Dictionary.find?_eq_head?_valuesOf]

/-- A change within the metadata of a record leaves its status as it was. -/
theorem statusOf_removeFinalizer {record : TenantRecord} {value changed : Json}
    (hstored : record.StoredAs value) {position : Nat}
    (hpatch : Json.patchAll (removeFinalizer position) value = some changed) :
    statusOf changed = statusOf value := by
  obtain ⟨members, rfl, -⟩ := hstored
  have hremove := Json.patchAll_test hpatch
  rw [Json.patchAll_singleton] at hremove
  obtain ⟨member, new, -, -, rfl⟩ := Json.changeAt_obj hremove
  simp [statusOf, Dictionary.find?_insert]

end TenantRecord

/-- A status that leaves nothing open but the place of its failure is stored as it is but for that. -/
theorem RecordStatus.over_eq {status before : RecordStatus} (place : Option String)
    (hphase : status.phase = none → before.phase = none)
    (hgeneration : status.observedGeneration ≠ none) (hoperation : status.lastOperation ≠ none) :
    status.over before place =
      { status with lastError := status.lastError.map (·.orAt place) } := by
  have hphase : status.phase.or before.phase = status.phase := by
    cases hnone : status.phase with
    | none => exact hphase hnone
    | some phase => rfl
  have hgeneration : status.observedGeneration.or before.observedGeneration =
      status.observedGeneration := by
    obtain ⟨generation, heq⟩ := Option.ne_none_iff_exists'.mp hgeneration
    rw [heq]
    rfl
  have hoperation : status.lastOperation.or before.lastOperation = status.lastOperation := by
    obtain ⟨operation, heq⟩ := Option.ne_none_iff_exists'.mp hoperation
    rw [heq]
    rfl
  rw [RecordStatus.over, hphase, hgeneration, hoperation]

/-- A failure is as it was unless it has got a place that it did not have. -/
theorem LastError.orAt_eq_iff {error : LastError} {place : Option String} :
    error.orAt place = error ↔ (error.fieldPath = none → place = none) := by
  obtain ⟨description, fieldPath, retryable⟩ := error
  cases fieldPath with
  | none => simp [orAt]
  | some found => simp [orAt]

namespace Controller

section Report

variable (record : TenantRecord) (transition : Transition) (result : Except ReconcileError Unit)
  (time : String) (status : RecordStatus)

theorem report_observedGeneration :
    (report record transition result time status).observedGeneration =
      record.metadata.generation := by
  cases result <;> rfl

theorem report_lastOperation_ne_none :
    (report record transition result time status).lastOperation ≠ none := by
  cases result <;> simp [report]

end Report

namespace Conduct

variable {settings : Settings} {record : TenantRecord} {ns name : String}

/-- The status that tells of a conduct. -/
def reported (conduct : Conduct settings record ns name) : RecordStatus :=
  report record (Transition.plan record) conduct.result conduct.time conduct.status

/-- The failure of a conduct names no field, but the failure that was stored before it names one. -/
def HasStalePlace (conduct : Conduct settings record ns name) : Prop :=
  ∃ error, conduct.result = .error error ∧ error.fieldPath? = none ∧ record.errorPlace? ≠ none

variable (conduct : Conduct settings record ns name)

/-- What is read of the status of a conduct after it was stored. -/
def readBack : RecordStatus :=
  { conduct.reported with lastError := conduct.reported.lastError.map (·.orAt record.errorPlace?) }

theorem readBack_eq_reported_iff : conduct.readBack = conduct.reported ↔ ¬ conduct.HasStalePlace := by
  have hlast : conduct.readBack = conduct.reported ↔
      conduct.reported.lastError.map (·.orAt record.errorPlace?) = conduct.reported.lastError := by
    constructor
    · intro heq
      exact congrArg RecordStatus.lastError heq
    · intro heq
      rw [readBack, heq]
  rw [hlast, HasStalePlace]
  cases hresult : conduct.result with
  | ok done => simp [reported, report, hresult]
  | error error =>
      have hreported : conduct.reported.lastError =
          some ⟨error.message, error.fieldPath?, error.isRetryable⟩ := by
        simp [reported, report, hresult]
      rw [hreported, Option.map_some, Option.some.injEq, LastError.orAt_eq_iff]
      constructor
      · rintro hplace ⟨found, hfound, hnone, hbefore⟩
        cases hfound
        exact hbefore (hplace hnone)
      · intro hfresh hnone
        by_contra hbefore
        exact hfresh ⟨error, rfl, hnone, hbefore⟩

/-- What is stored of a conduct is read back as its status but for a stale place. -/
theorem over_eq_readBack (hgeneration : record.metadata.generation ≠ none) :
    conduct.reported.over (record.status.getD .initial) record.errorPlace? = conduct.readBack := by
  refine RecordStatus.over_eq _ ?_ ?_ (report_lastOperation_ne_none _ _ _ _ _)
  · intro hnone
    have hbefore := conduct.phase?_of_reported_phase hnone
    cases hstatus : record.status with
    | none => rfl
    | some status => simpa [TenantRecord.phase?, hstatus] using hbefore
  · rw [reported, report_observedGeneration]
    exact hgeneration

/-- What is changed at the end is not the status. -/
theorem statusOf_after_ending {kept : TenantRecord} {world : World}
    (hkept : kept.StoredAs world.record) :
    TenantRecord.statusOf
        (Dialogue.after Inquiry.effect (conduct.ending.exchanges (recordKey ns name)) world).record =
      TenantRecord.statusOf world.record := by
  cases conduct.ending with
  | nothing => rfl
  | answered response =>
      rw [Ending.exchanges]
      rcases after_changeExchange world _ response with hafter | hafter <;> rw [hafter]
      exact TenantRecord.statusOf_mergeAnnotation world.record
  | released position response =>
      rw [Ending.exchanges]
      rcases after_changeExchange world _ response with hafter | hafter <;> rw [hafter]
      rw [ApiRequest.change]
      cases hpatch : Json.patchAll (removeFinalizer position) world.record with
      | none => rfl
      | some changed => exact TenantRecord.statusOf_removeFinalizer hkept hpatch

end Conduct

end Controller

/-- The status that an episode has stored is read back as the status that tells of it, over whatever
status the controller has stored before, unless it is that of a failure without a field and the
failure before it has named a field: that field is kept then, and it is all that differs. -/
theorem stored_eq_reported_iff {settings : Settings} {episode : Episode} {ns name : String}
    (hheld : episode.HeldBy settings) (hnamed : episode.record.Named ns name)
    (hguarded : episode.record.Guarded)
    (hwritten : WrittenStatus (TenantRecord.statusOf episode.before.record))
    (hgeneration : episode.record.metadata.generation ≠ none) (hstores : episode.Stores) :
    WrittenStatus (TenantRecord.statusOf episode.after.record) ∧
    ∃ (conduct : Conduct settings episode.record ns name) (kept : TenantRecord)
      (status : RecordStatus),
      episode.exchanges = conduct.exchanges ∧ kept.StoredAs episode.after.record ∧
      kept.status = some status ∧ status = conduct.readBack ∧
      (status = conduct.reported ↔ ¬ conduct.HasStalePlace) := by
  obtain ⟨conduct, hexchanges, -⟩ := exists_conduct hnamed hguarded hheld.2
  have hgranted := (Episode.stores_iff_granted conduct hexchanges).mp hstores
  have hkept := hheld.1.mergeStatus_of_written hwritten conduct.reported
  rw [conduct.over_eq_readBack hgeneration] at hkept
  obtain ⟨written, hrecord, hcarried⟩ : ∃ world : World,
      world.record = Json.merge conduct.change episode.before.record ∧
        Dialogue.after Inquiry.effect conduct.carriedOut episode.before = world :=
    ⟨_, rfl, conduct.after_carriedOut_of_granted hgranted⟩
  rw [show statusChange conduct.reported = conduct.change from rfl, ← hrecord] at hkept
  have hafter : episode.after =
      Dialogue.after Inquiry.effect (conduct.ending.exchanges (recordKey ns name)) written := by
    rw [Episode.after, hexchanges, Conduct.exchanges, Dialogue.after_append, hcarried]
  rw [hafter]
  refine ⟨?_, ?_⟩
  · rw [conduct.statusOf_after_ending hkept, hrecord]
    rw [Conduct.change, TenantRecord.statusOf_mergeStatus]
    exact WrittenStatus.store _ _
  · obtain ⟨-, last, hlast, -, hstatus, -⟩ := conduct.after_ending hkept
    exact ⟨conduct, last, conduct.readBack, hexchanges, hlast, hstatus, rfl,
      conduct.readBack_eq_reported_iff⟩

section Interrupted

/-- The answers when the controller is told to stop before any call, while the server still grants its
requests. -/
def Inquiry.interrupted (stored : Json) : (inquiry : Inquiry) → Unit → inquiry.Answer × Unit
  | .call _, _ => (.cancelled, ())
  | .api (.request _), _ => (⟨200, stored⟩, ())
  | .api (.attempt _), _ => (none, ())
  | .api (.pause _), _ => (true, ())
  | .api .now, _ => ("", ())

/-- What is told of a document without a target. -/
def RecordStatus.sampleRefused : RecordStatus :=
  { RecordStatus.initial with
    observedGeneration := some 1
    lastOperation := some ⟨.reconcile, .failed, "target must not be empty", ""⟩
    lastError := some ⟨"target must not be empty", some "target", false⟩ }

/-- A record as it is kept after its document was refused and its migration was asked for. -/
def TenantRecord.sampleRefusedStored : Json :=
  Json.object
    [("metadata", Json.object
      [("name", .str "rsyslog-relp"), ("namespace", .str "tenant"), ("generation", .int 1),
       ("annotations", Json.object [(TenantRecord.operationAnnotation, .str "migrate")]),
       ("finalizers", Json.texts [finalizerName])]),
     ("spec", Json.object []),
     ("status", Json.merge (Json.object (statusMembers .sampleRefused)) .null)]

/-- The record that is read then. -/
def TenantRecord.sampleRefused : TenantRecord :=
  ⟨⟨some "rsyslog-relp", some "tenant", some 1, [(TenantRecord.operationAnnotation, "migrate")],
    [finalizerName], false⟩, none, some .sampleRefused⟩

/-- The controller is told to stop when it is about to look after that record. -/
def Episode.sampleInterrupted : Episode where
  before := ⟨TenantRecord.sampleRefusedStored, .nothing⟩
  record := .sampleRefused
  exchanges := (care .standard TenantRecord.sampleRefused).exchangesWith
    (Inquiry.interrupted TenantRecord.sampleRefusedStored) ()
  outcome := ((care .standard TenantRecord.sampleRefused).run
    (Inquiry.interrupted TenantRecord.sampleRefusedStored) ()).1

theorem TenantRecord.sampleRefused_storedAs :
    TenantRecord.sampleRefused.StoredAs TenantRecord.sampleRefusedStored :=
  ⟨_, rfl, by decide +kernel⟩

theorem Episode.sampleInterrupted_heldBy : sampleInterrupted.HeldBy .standard :=
  ⟨TenantRecord.sampleRefused_storedAs, Dialogue.held_run _ _ ()⟩

/-- That the migration of the record could not begin is all that is told of the interrupted episode. -/
theorem Episode.result_of_sampleInterrupted
    (conduct : Conduct .standard TenantRecord.sampleRefused "tenant" "rsyslog-relp")
    (hexchanges : Episode.sampleInterrupted.exchanges = conduct.exchanges) :
    conduct.result = .error .cancelled := by
  have hcalls : conduct.calls =
      [⟨.channel "tenant" Actuator.configurationBundle .keep, .cancelled⟩] := by
    have hcalls := @Episode.calls_of_conduct .standard sampleInterrupted _ _ conduct hexchanges
    exact hcalls.symm
  have hheld := conduct.held
  have hplan : Transition.plan TenantRecord.sampleRefused = .migrate := rfl
  rw [hplan, hcalls, Actuator.transit, Actuator.migrate] at hheld
  rcases Act.held_bind.mp hheld with
    ⟨first, rest, middle, status, hsplit, hkeep, -⟩ | ⟨error, hkeep, hresult⟩
  · obtain ⟨rfl, -⟩ := Act.held_call_ok.mp hkeep
    cases hsplit
  · obtain ⟨reply, hone, houtcome, -⟩ := Act.held_call.mp hkeep
    cases hone
    rw [hresult]
    cases houtcome
    rfl

/-- The interrupted episode leaves a record that tells of an interruption at the target, which is not
what there was to tell. -/
theorem sample_keeps_stale_place :
    ∃ (conduct : Conduct .standard TenantRecord.sampleRefused "tenant" "rsyslog-relp")
      (kept : TenantRecord) (status : RecordStatus),
      kept.StoredAs Episode.sampleInterrupted.after.record ∧ kept.status = some status ∧
      status.lastError = some ⟨"reconcile cancelled", some "target", true⟩ ∧
      conduct.reported.lastError = some ⟨"reconcile cancelled", none, true⟩ ∧
      status ≠ conduct.reported := by
  have hstored := TenantRecord.sampleRefused_storedAs
  have hwritten : WrittenStatus (TenantRecord.statusOf TenantRecord.sampleRefusedStored) :=
    WrittenStatus.store .sampleRefused .null
  have hnamed : TenantRecord.sampleRefused.Named "tenant" "rsyslog-relp" :=
    ⟨rfl, rfl, by decide⟩
  have hstores : Episode.sampleInterrupted.Stores := by
    refine ⟨_, _, ⟨200, TenantRecord.sampleRefusedStored⟩,
      List.mem_cons_of_mem _ (List.mem_cons_of_mem _ List.mem_cons_self), ?_⟩
    exact ⟨TenantRecord.sampleRefused, by decide +kernel⟩
  obtain ⟨-, conduct, kept, status, hexchanges, hkept, hstatus, rfl, hiff⟩ :=
    stored_eq_reported_iff Episode.sampleInterrupted_heldBy hnamed (by decide) hwritten
      (by decide) hstores
  have hresult := Episode.result_of_sampleInterrupted conduct hexchanges
  have hreported : conduct.reported.lastError = some ⟨"reconcile cancelled", none, true⟩ := by
    rw [Conduct.reported, hresult]
    rfl
  have hstale : conduct.HasStalePlace := ⟨.cancelled, hresult, rfl, by decide⟩
  refine ⟨conduct, kept, _, hkept, hstatus, ?_, hreported, fun heq => hiff.mp heq hstale⟩
  rw [Conduct.readBack, hreported]
  rfl

end Interrupted

end LogForwarding
