import LogForwarding.Proofs.Schema
import LogForwarding.Reconcile.Controller

/-!
A status that was stored is read back as far as the controller relies on it, whatever was stored
before it.
-/

namespace LogForwarding

open Fields

/-- The patch that is made of members sets them one by one. -/
theorem Json.merge_object (pairs : List (String × Json)) (value : Json) :
    merge (object pairs) value = .obj (mergeMembers (Dictionary.ofList pairs) value.members) :=
  merge_obj _ _

/-- A field that may be missing or null is read from its first member, or from null. -/
theorem nullable_head_of_reads {α : Type} {name : String} {item : Decoder α} {result : Option α}
    {members : Dictionary Json} (hreads : (optionalMember name item).Reads members result) :
    Decoder.nullable item ((members.find? name).getD .null) = .ok result := by
  rcases find?_of_reads_field hreads with ⟨hnone, habsent⟩ | ⟨value, hfound, hitem⟩
  · rw [hnone]
    exact congrArg Except.ok (Option.some.inj habsent)
  · rw [hfound]
    exact hitem

/-- A field that must be there is read from its first member. -/
theorem find?_of_reads {α : Type} {name : String} {item : Decoder α} {result : α}
    {members : Dictionary Json} (hreads : (required name item).Reads members result) :
    ∃ value, members.find? name = some value ∧ item value = .ok result := by
  rcases find?_of_reads_field hreads with ⟨-, habsent⟩ | hfound
  · cases habsent
  · exact hfound

theorem Phase.decode_toJson (phase : Phase) : decode phase.toJson = .ok phase := by
  cases phase <;> rfl

theorem OperationType.decode_name (type : OperationType) :
    decode (.str type.name) = .ok type := by
  cases type <;> rfl

theorem OperationState.decode_name (state : OperationState) :
    decode (.str state.name) = .ok state := by
  cases state <;> rfl

theorem LastOperation.decode_obj_ok_iff {members : Dictionary Json} {operation : LastOperation} :
    LastOperation.decode (.obj members) = .ok operation ↔
      (required "type" OperationType.decode).Reads members operation.type ∧
      (required "state" OperationState.decode).Reads members operation.state ∧
      (required "description" Decoder.text).Reads members operation.description ∧
      (required "lastUpdateTime" Decoder.text).Reads members operation.updated := by
  rw [decode, decoder_obj_ok_iff]
  simp only [reads_seq, reads_map]
  constructor
  · rintro ⟨_, _, ⟨_, _, ⟨_, _, ⟨_, htype, rfl⟩, hstate, rfl⟩, hdescription, rfl⟩, hupdated, rfl⟩
    exact ⟨htype, hstate, hdescription, hupdated⟩
  · rintro ⟨htype, hstate, hdescription, hupdated⟩
    exact ⟨_, _, ⟨_, _, ⟨_, _, ⟨_, htype, rfl⟩, hstate, rfl⟩, hdescription, rfl⟩, hupdated, rfl⟩

/-- An operation is read back, whatever stood in its place before. -/
theorem LastOperation.decode_merge (operation : LastOperation) {value : Json}
    {before : Option LastOperation}
    (hread : Decoder.nullable LastOperation.decode value = .ok before) :
    LastOperation.decode (Json.merge operation.toJson value) = .ok operation := by
  have haccepts := accepts_members_of_nullable hread
  simp only [accepts_seq, accepts_map, required, accepts_field] at haccepts
  obtain ⟨⟨⟨htype, hstate⟩, hdescription⟩, hupdated⟩ := haccepts
  rw [toJson, Json.merge_object, decode_obj_ok_iff]
  exact ⟨reads_set (by simp) (by simp) htype (OperationType.decode_name _) (by simp) (by simp),
    reads_set (by simp) (by simp) hstate (OperationState.decode_name _) (by simp) (by simp),
    reads_set (by simp) (by simp) hdescription (Decoder.text_str _) (by simp) (by simp),
    reads_set (by simp) (by simp) hupdated (Decoder.text_str _) (by simp) (by simp)⟩

theorem LastError.decode_obj_ok_iff {members : Dictionary Json} {error : LastError} :
    LastError.decode (.obj members) = .ok error ↔
      (required "description" Decoder.text).Reads members error.description ∧
      (optionalMember "fieldPath" Decoder.text).Reads members error.fieldPath ∧
      (required "retryable" Decoder.boolean).Reads members error.retryable := by
  rw [decode, decoder_obj_ok_iff]
  simp only [reads_seq, reads_map]
  constructor
  · rintro ⟨_, _, ⟨_, _, ⟨_, hdescription, rfl⟩, hplace, rfl⟩, hretryable, rfl⟩
    exact ⟨hdescription, hplace, hretryable⟩
  · rintro ⟨hdescription, hplace, hretryable⟩
    exact ⟨_, _, ⟨_, _, ⟨_, hdescription, rfl⟩, hplace, rfl⟩, hretryable, rfl⟩

/-- The failure, at an earlier place if it has none of its own. -/
def LastError.orAt (error : LastError) (place : Option String) : LastError :=
  { error with fieldPath := error.fieldPath.or place }

/-- The place that is read from what stood in the place of a failure. -/
theorem LastError.exists_place {value : Json} {before : Option LastError}
    (hread : Decoder.nullable LastError.decode value = .ok before) :
    ∃ place, (optionalMember "fieldPath" Decoder.text).Reads value.members place ∧
      ((∀ items, value ≠ .arr items) → place = before.bind LastError.fieldPath) := by
  have hempty : (optionalMember "fieldPath" Decoder.text).Reads [] none :=
    reads_field.mpr ⟨nofun, rfl⟩
  cases value with
  | obj members =>
      rw [Decoder.nullable_of_ne (by simp)] at hread
      cases hdecode : LastError.decode (.obj members) with
      | ok found =>
          rw [hdecode] at hread
          cases hread
          exact ⟨found.fieldPath, (decode_obj_ok_iff.mp hdecode).2.1, fun _ => rfl⟩
      | error mismatch => simp [hdecode, Except.map] at hread
  | null =>
      cases hread
      exact ⟨none, hempty, fun _ => rfl⟩
  | arr items => exact ⟨none, hempty, fun hplain => absurd rfl (hplain items)⟩
  | _ => cases hread

/-- A failure is read back, whatever stood in its place before, but one without a place of its own in
the tenant document is read with that of the failure before. -/
theorem LastError.exists_decode_merge (error : LastError) {value : Json}
    {before : Option LastError}
    (hread : Decoder.nullable LastError.decode value = .ok before) :
    ∃ place, LastError.decode (Json.merge error.toJson value) = .ok (error.orAt place) ∧
      ((∀ items, value ≠ .arr items) → place = before.bind LastError.fieldPath) := by
  have haccepts := accepts_members_of_nullable hread
  simp only [accepts_seq, accepts_map, required, optionalMember, accepts_field] at haccepts
  obtain ⟨⟨hdescription, hsound⟩, hretryable⟩ := haccepts
  obtain ⟨place, hplace, hbefore⟩ := LastError.exists_place hread
  refine ⟨place, ?_, hbefore⟩
  cases hfound : error.fieldPath with
  | none =>
      rw [toJson, hfound, Json.ofFields, Json.merge_object, decode_obj_ok_iff, orAt, hfound]
      refine ⟨?_, ?_, ?_⟩
      · exact reads_set (by simp) (by simp) hdescription (Decoder.text_str _) (by simp) (by simp)
      · exact (reads_unnamed (by simp) (by simp)).mpr hplace
      · exact reads_set (by simp) (by simp) hretryable (Decoder.boolean_bool _) (by simp) (by simp)
  | some text =>
      rw [toJson, hfound, Json.ofFields, Json.merge_object, decode_obj_ok_iff, orAt, hfound]
      refine ⟨?_, ?_, ?_⟩
      · exact reads_set (by simp) (by simp) hdescription (Decoder.text_str _) (by simp) (by simp)
      · have hitem := Decoder.nullable_ok (by simp) (Decoder.text_str text)
        exact reads_set (by simp) (by simp) hsound hitem (by simp) (by simp)
      · exact reads_set (by simp) (by simp) hretryable (Decoder.boolean_bool _) (by simp) (by simp)

theorem RecordStatus.decode_obj_ok_iff {members : Dictionary Json} {status : RecordStatus} :
    RecordStatus.decode (.obj members) = .ok status ↔
      (optionalMember "phase" Phase.decode).Reads members status.phase ∧
      (optionalMember "observedGeneration" Decoder.int64).Reads members
        status.observedGeneration ∧
      (optionalMember "lastAppliedArtifactHash" Decoder.text).Reads members
        status.appliedDigest ∧
      (withDefault "cleanupJobPresent" Decoder.boolean false).Reads members
        status.cleanupPresent ∧
      (optionalMember "lastOperation" LastOperation.decode).Reads members status.lastOperation ∧
      (optionalMember "lastError" LastError.decode).Reads members status.lastError := by
  rw [decode, decoder_obj_ok_iff]
  simp only [reads_seq, reads_map]
  constructor
  · rintro ⟨_, _, ⟨_, _, ⟨_, _, ⟨_, _, ⟨_, _, ⟨_, hphase, rfl⟩, hgeneration, rfl⟩, hdigest, rfl⟩,
      hcleanup, rfl⟩, hoperation, rfl⟩, herror, rfl⟩
    exact ⟨hphase, hgeneration, hdigest, hcleanup, hoperation, herror⟩
  · rintro ⟨hphase, hgeneration, hdigest, hcleanup, hoperation, herror⟩
    exact ⟨_, _, ⟨_, _, ⟨_, _, ⟨_, _, ⟨_, _, ⟨_, hphase, rfl⟩, hgeneration, rfl⟩, hdigest, rfl⟩,
      hcleanup, rfl⟩, hoperation, rfl⟩, herror, rfl⟩

/-- The members of a stored status are those of this status, or of none that was ever stored. -/
theorem RecordStatus.exists_decode_members {value : Json} {before : Option RecordStatus}
    (hread : Decoder.nullable RecordStatus.decode value = .ok before) :
    ∃ base, RecordStatus.decode (.obj value.members) = .ok base ∧
      (before = some base ∨ base = .initial) ∧
      ((∀ items, value ≠ .arr items) → base = before.getD .initial) := by
  cases value with
  | obj members =>
      rw [Decoder.nullable_of_ne (by simp)] at hread
      cases hdecode : RecordStatus.decode (.obj members) with
      | ok base =>
          rw [hdecode] at hread
          cases hread
          exact ⟨base, hdecode, Or.inl rfl, fun _ => rfl⟩
      | error mismatch => simp [hdecode, Except.map] at hread
  | null =>
      cases hread
      exact ⟨.initial, rfl, Or.inr rfl, fun _ => rfl⟩
  | arr items => exact ⟨.initial, rfl, Or.inr rfl, fun hplain => absurd rfl (hplain items)⟩
  | _ => cases hread

section Status

open Controller

theorem nodup_statusMembers (status : RecordStatus) :
    ((statusMembers status).map (·.1)).Nodup := by
  have hsublist : ∀ members : List (String × Option Json),
      List.Sublist ((members.filterMap fun entry =>
        if entry.1 ∈ clearedMembers then some (entry.1, entry.2.getD .null)
        else entry.2.map fun value => (entry.1, value)).map (·.1)) (members.map (·.1)) := by
    intro members
    induction members with
    | nil => exact List.Sublist.refl _
    | cons entry rest ih =>
        obtain ⟨name, value⟩ := entry
        by_cases hcleared : name ∈ clearedMembers
        · simpa [hcleared] using ih.cons_cons name
        · cases value with
          | none => simpa [hcleared] using ih.cons name
          | some found => simpa [hcleared] using ih.cons_cons name
  exact (hsublist status.members).nodup (by simp [RecordStatus.members])

/-- The members of a status that have a value are named with it. -/
theorem mem_statusMembers {status : RecordStatus} {name : String} {value : Json}
    (hmem : (name, some value) ∈ status.members) : (name, value) ∈ statusMembers status := by
  refine List.mem_filterMap.mpr ⟨(name, some value), hmem, ?_⟩
  by_cases hcleared : name ∈ clearedMembers <;> simp [hcleared]

/-- The members of a status that have to be cleared are named as null. -/
theorem null_mem_statusMembers {status : RecordStatus} {name : String}
    (hcleared : name ∈ clearedMembers) (hmem : (name, none) ∈ status.members) :
    (name, .null) ∈ statusMembers status :=
  List.mem_filterMap.mpr ⟨(name, none), hmem, by simp [hcleared]⟩

/-- The other members of a status that have no value are not named. -/
theorem notMem_statusMembers {status : RecordStatus} {name : String}
    (hcleared : name ∉ clearedMembers)
    (hnone : ∀ value, (name, some value) ∉ status.members) :
    name ∉ (statusMembers status).map (·.1) := by
  intro hmem
  obtain ⟨⟨key, found⟩, hentry, rfl⟩ := List.mem_map.mp hmem
  obtain ⟨⟨other, value⟩, hmember, heq⟩ := List.mem_filterMap.mp hentry
  by_cases hother : other ∈ clearedMembers
  · simp only [hother, ↓reduceIte, Option.some.injEq, Prod.mk.injEq] at heq
    exact hcleared (heq.1 ▸ hother)
  · cases value with
    | none => simp [hother] at heq
    | some value =>
        simp only [hother, ↓reduceIte, Option.map_some, Option.some.injEq, Prod.mk.injEq] at heq
        exact hnone value (heq.1 ▸ hmember)

variable {status : RecordStatus} {members : Dictionary Json}

/-- A member of a status that has a value is read back. -/
theorem reads_statusMember {α : Type} {name : String} {item : Decoder α} {before : Option α}
    {change : Json} {result : α} (hmem : (name, some change) ∈ status.members)
    (hreads : (optionalMember name item).Reads members before)
    (hitem : item change = .ok result) (hchange : change ≠ .null)
    (hobj : ∀ changes, change ≠ .obj changes) :
    (optionalMember name item).Reads
      (Json.mergeMembers (Dictionary.ofList (statusMembers status)) members) (some result) :=
  reads_set (nodup_statusMembers status) (mem_statusMembers hmem) (accepts_field.mp hreads.1)
    (Decoder.nullable_ok hchange hitem) hchange hobj

/-- A member of a status that has no value, and is not cleared, keeps its earlier one. -/
theorem reads_absent {α : Type} {name : String} {item : Decoder α} {before : Option α}
    (hreads : (optionalMember name item).Reads members before)
    (hcleared : name ∉ clearedMembers) (hnone : ∀ value, (name, some value) ∉ status.members) :
    (optionalMember name item).Reads
      (Json.mergeMembers (Dictionary.ofList (statusMembers status)) members) before :=
  (reads_unnamed (nodup_statusMembers status) (notMem_statusMembers hcleared hnone)).mpr hreads

theorem reads_phase {before : Option Phase}
    (hreads : (optionalMember "phase" Phase.decode).Reads members before) :
    (optionalMember "phase" Phase.decode).Reads
      (Json.mergeMembers (Dictionary.ofList (statusMembers status)) members)
      (status.phase.or before) := by
  cases hphase : status.phase with
  | none => exact reads_absent hreads (by decide) (by simp [RecordStatus.members, hphase])
  | some phase =>
      have hmem : ("phase", some phase.toJson) ∈ status.members := by
        simp [RecordStatus.members, hphase]
      exact reads_statusMember hmem hreads (Phase.decode_toJson phase) (by simp [Phase.toJson])
        (by simp [Phase.toJson])

theorem reads_generation {before : Option Int64}
    (hreads : (optionalMember "observedGeneration" Decoder.int64).Reads members before) :
    (optionalMember "observedGeneration" Decoder.int64).Reads
      (Json.mergeMembers (Dictionary.ofList (statusMembers status)) members)
      (status.observedGeneration.or before) := by
  cases hgeneration : status.observedGeneration with
  | none => exact reads_absent hreads (by decide) (by simp [RecordStatus.members, hgeneration])
  | some generation =>
      have hmem : ("observedGeneration", some (Json.int generation.toInt)) ∈ status.members := by
        simp [RecordStatus.members, hgeneration]
      exact reads_statusMember hmem hreads (Decoder.int64_toInt generation) (by simp) (by simp)

theorem reads_digest {before : Option String}
    (hreads : (optionalMember "lastAppliedArtifactHash" Decoder.text).Reads members before) :
    (optionalMember "lastAppliedArtifactHash" Decoder.text).Reads
      (Json.mergeMembers (Dictionary.ofList (statusMembers status)) members)
      status.appliedDigest := by
  cases hdigest : status.appliedDigest with
  | none =>
      refine reads_cleared (nodup_statusMembers status) ?_ rfl
      exact null_mem_statusMembers (by decide) (by simp [RecordStatus.members, hdigest])
  | some digest =>
      have hmem : ("lastAppliedArtifactHash", some (Json.str digest)) ∈ status.members := by
        simp [RecordStatus.members, hdigest]
      exact reads_statusMember hmem hreads (Decoder.text_str digest) (by simp) (by simp)

theorem reads_cleanup {before : Bool}
    (hreads : (withDefault "cleanupJobPresent" Decoder.boolean false).Reads members before) :
    (withDefault "cleanupJobPresent" Decoder.boolean false).Reads
      (Json.mergeMembers (Dictionary.ofList (statusMembers status)) members)
      status.cleanupPresent := by
  have hmem : ("cleanupJobPresent", some (Json.bool status.cleanupPresent)) ∈ status.members := by
    simp [RecordStatus.members]
  exact reads_set (nodup_statusMembers status) (mem_statusMembers hmem)
    (accepts_field.mp hreads.1) (Decoder.boolean_bool _) (by simp) (by simp)

theorem reads_operation {before : Option LastOperation}
    (hreads : (optionalMember "lastOperation" LastOperation.decode).Reads members before) :
    (optionalMember "lastOperation" LastOperation.decode).Reads
      (Json.mergeMembers (Dictionary.ofList (statusMembers status)) members)
      (status.lastOperation.or before) := by
  cases hoperation : status.lastOperation with
  | none => exact reads_absent hreads (by decide) (by simp [RecordStatus.members, hoperation])
  | some operation =>
      have hmem : ("lastOperation", some operation.toJson) ∈ status.members := by
        simp [RecordStatus.members, hoperation]
      refine reads_merged (nodup_statusMembers status) (mem_statusMembers hmem)
        (by simp [LastOperation.toJson, Json.object]) (accepts_field.mp hreads.1) ?_
      refine Decoder.nullable_ok ?_
        (LastOperation.decode_merge operation (nullable_head_of_reads hreads))
      rw [LastOperation.toJson, Json.merge_object]
      simp

theorem exists_reads_error (status : RecordStatus) {before : Option LastError}
    (hreads : (optionalMember "lastError" LastError.decode).Reads members before) :
    ∃ place, (optionalMember "lastError" LastError.decode).Reads
        (Json.mergeMembers (Dictionary.ofList (statusMembers status)) members)
        (status.lastError.map (·.orAt place)) ∧
      ((∀ items, members.find? "lastError" ≠ some (.arr items)) →
        place = before.bind LastError.fieldPath) := by
  cases herror : status.lastError with
  | none =>
      refine ⟨before.bind LastError.fieldPath, ?_, fun _ => rfl⟩
      refine reads_cleared (nodup_statusMembers status) ?_ rfl
      exact null_mem_statusMembers (by decide) (by simp [RecordStatus.members, herror])
  | some error =>
      have hmem : ("lastError", some error.toJson) ∈ status.members := by
        simp [RecordStatus.members, herror]
      obtain ⟨place, hstored, hbefore⟩ :=
        LastError.exists_decode_merge error (nullable_head_of_reads hreads)
      refine ⟨place, ?_, ?_⟩
      · refine reads_merged (nodup_statusMembers status) (mem_statusMembers hmem)
          (by simp [LastError.toJson, Json.ofFields, Json.object]) (accepts_field.mp hreads.1) ?_
        refine Decoder.nullable_ok ?_ hstored
        rw [LastError.toJson, Json.ofFields, Json.merge_object]
        simp
      · intro hplain
        apply hbefore
        intro items heq
        cases hfind : Dictionary.find? members "lastError" with
        | none => simp [hfind] at heq
        | some value =>
            rw [hfind] at heq
            exact hplain items (hfind.trans (congrArg some heq))

/-- What is read of a status that is stored over another one: what it leaves open is as before, and
so is the place of a failure. -/
def RecordStatus.over (status before : RecordStatus) (place : Option String) : RecordStatus where
  phase := status.phase.or before.phase
  observedGeneration := status.observedGeneration.or before.observedGeneration
  appliedDigest := status.appliedDigest
  cleanupPresent := status.cleanupPresent
  lastOperation := status.lastOperation.or before.lastOperation
  lastError := status.lastError.map (·.orAt place)

/-- A status that is stored is read back over the one that was stored before. -/
theorem RecordStatus.exists_decode_merge_over (status : RecordStatus) {value : Json}
    {before : Option RecordStatus}
    (hread : Decoder.nullable RecordStatus.decode value = .ok before) :
    ∃ base place,
      RecordStatus.decode (Json.merge (Json.object (statusMembers status)) value) =
        .ok (status.over base place) ∧
      (before = some base ∨ base = .initial) ∧
      ((∀ items, value ≠ .arr items) → base = before.getD .initial) ∧
      ((∀ items, value.members.find? "lastError" ≠ some (.arr items)) →
        place = base.lastError.bind LastError.fieldPath) := by
  obtain ⟨base, hbase, horigin, hplain⟩ := exists_decode_members hread
  obtain ⟨hphase, hgeneration, hdigest, hcleanup, hoperation, herror⟩ :=
    decode_obj_ok_iff.mp hbase
  obtain ⟨place, herror, hplace⟩ := exists_reads_error status herror
  refine ⟨base, place, ?_, horigin, hplain, hplace⟩
  rw [Json.merge_object, decode_obj_ok_iff]
  exact ⟨reads_phase hphase, reads_generation hgeneration, reads_digest hdigest,
    reads_cleanup hcleanup, reads_operation hoperation, herror⟩

/-- A status that is stored is read back with its phase, its digest and its mark of a cleanup.  A
phase cannot be taken back, which no transition does. -/
theorem RecordStatus.exists_decode_merge {value : Json} {before : Option RecordStatus}
    (hread : Decoder.nullable RecordStatus.decode value = .ok before)
    (hbefore : status.phase = none → before.bind RecordStatus.phase = none) :
    ∃ stored, RecordStatus.decode (Json.merge (Json.object (statusMembers status)) value) =
        .ok stored ∧
      stored.phase = status.phase ∧ stored.appliedDigest = status.appliedDigest ∧
      stored.cleanupPresent = status.cleanupPresent := by
  obtain ⟨base, place, hdecode, horigin, -, -⟩ := exists_decode_merge_over status hread
  refine ⟨status.over base place, hdecode, ?_, rfl, rfl⟩
  cases hphase : status.phase with
  | some phase => simp [RecordStatus.over, hphase]
  | none =>
      have hnone := hbefore hphase
      rcases horigin with rfl | rfl
      · simpa [RecordStatus.over, hphase] using hnone
      · simp [RecordStatus.over, hphase, initial]

end Status

end LogForwarding
