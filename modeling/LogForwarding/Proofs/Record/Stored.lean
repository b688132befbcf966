import Mathlib.Data.List.InsertIdx
import LogForwarding.Proofs.Patch
import LogForwarding.Proofs.Record.Status

/-!
What the API server keeps of a record, and what it says after the controller has changed it.  To
store a status leaves the rest of the record alone, and to change its metadata leaves its status
alone.
-/

namespace LogForwarding

open Fields

/-- What may be null is a dictionary of its members, or it has no members. -/
theorem dictionary_members_of_nullable {α : Type} {item : Decoder α} {value : Json}
    {result : Option (Dictionary α)}
    (hread : Decoder.nullable (Decoder.dictionary item) value = .ok result) :
    Decoder.entries item 0 value.members = .ok (result.getD []) := by
  cases value with
  | null =>
      cases hread
      rfl
  | obj members =>
      rw [Decoder.nullable_of_ne (by simp)] at hread
      cases hentries : Decoder.entries item 0 members with
      | ok found =>
          simp only [Decoder.dictionary, hentries] at hread
          cases hread
          exact hentries
      | error mismatch =>
          simp only [Decoder.dictionary, hentries] at hread
          cases hread
  | _ => simp [Decoder.nullable, Decoder.dictionary, Except.map] at hread

namespace ObjectMeta

theorem decode_ok_iff {value : Json} {metadata : ObjectMeta} :
    decode value = .ok metadata ↔
      ∃ members annotations finalizers deletion, value = .obj members ∧
        (optional "name" Decoder.text).Reads members metadata.name ∧
        (optional "namespace" Decoder.text).Reads members metadata.ns ∧
        (optional "generation" Decoder.int64).Reads members metadata.generation ∧
        (optional "annotations" (Decoder.dictionary Decoder.text)).Reads members annotations ∧
        (optional "finalizers" (Decoder.list Decoder.text)).Reads members finalizers ∧
        (optional "deletionTimestamp" timestamp).Reads members deletion ∧
        metadata.annotations = annotations.getD [] ∧ metadata.finalizers = finalizers.getD [] ∧
        metadata.deleting = deletion.isSome := by
  rw [decode, fields, objectDecoder_ok_iff]
  simp only [reads_seq, reads_map]
  constructor
  · rintro ⟨members, rfl, _, _, ⟨_, _, ⟨_, _, ⟨_, _, ⟨_, _, ⟨_, hname, rfl⟩, hns, rfl⟩, hgeneration,
      rfl⟩, ⟨annotations, hannotations, rfl⟩, rfl⟩, ⟨finalizers, hfinalizers, rfl⟩, rfl⟩,
      ⟨deletion, hdeletion, rfl⟩, rfl⟩
    exact ⟨members, annotations, finalizers, deletion, rfl, hname, hns, hgeneration, hannotations,
      hfinalizers, hdeletion, rfl, rfl, rfl⟩
  · rintro ⟨members, annotations, finalizers, deletion, rfl, hname, hns, hgeneration, hannotations,
      hfinalizers, hdeletion, heqannotations, heqfinalizers, heqdeleting⟩
    refine ⟨members, rfl, _, _, ⟨_, _, ⟨_, _, ⟨_, _, ⟨_, _, ⟨_, hname, rfl⟩, hns, rfl⟩, hgeneration,
      rfl⟩, ⟨annotations, hannotations, rfl⟩, rfl⟩, ⟨finalizers, hfinalizers, rfl⟩, rfl⟩,
      ⟨deletion, hdeletion, rfl⟩, ?_⟩
    rw [← heqannotations, ← heqfinalizers, ← heqdeleting]

theorem decode_insert_finalizers {members : Dictionary Json} {metadata : ObjectMeta}
    (hdecode : decode (.obj members) = .ok metadata) {value : Json} {found : Option (List String)}
    (hitem : Decoder.nullable (Decoder.list Decoder.text) value = .ok found) :
    decode (.obj (members.insert "finalizers" value)) =
      .ok { metadata with finalizers := found.getD [] } := by
  obtain ⟨_, annotations, finalizers, deletion, heq, hname, hns, hgeneration, hannotations,
    hfinalizers, hdeletion, heqannotations, -, heqdeleting⟩ := decode_ok_iff.mp hdecode
  cases heq
  refine decode_ok_iff.mpr ⟨_, annotations, found, deletion, rfl, ?_, ?_, ?_, ?_, ?_, ?_,
    heqannotations, rfl, heqdeleting⟩
  · exact (reads_insert_of_ne (by simp) value).mpr hname
  · exact (reads_insert_of_ne (by simp) value).mpr hns
  · exact (reads_insert_of_ne (by simp) value).mpr hgeneration
  · exact (reads_insert_of_ne (by simp) value).mpr hannotations
  · exact reads_insert (accepts_field.mp hfinalizers.1) hitem
  · exact (reads_insert_of_ne (by simp) value).mpr hdeletion

/-- An annotation that is taken away is the only thing that changes. -/
theorem decode_merge_annotation {value : Json} {metadata : ObjectMeta}
    (hdecode : decode value = .ok metadata) (key : String) :
    decode (Json.merge (Json.object [("annotations", Json.object [(key, .null)])]) value) =
      .ok { metadata with annotations := Dictionary.erase key metadata.annotations } := by
  obtain ⟨members, annotations, finalizers, deletion, rfl, hname, hns, hgeneration, hannotations,
    hfinalizers, hdeletion, heqannotations, heqfinalizers, heqdeleting⟩ := decode_ok_iff.mp hdecode
  rw [Json.merge_object]
  refine decode_ok_iff.mpr ⟨_, some (Dictionary.erase key metadata.annotations), finalizers,
    deletion, rfl, ?_, ?_, ?_, ?_, ?_, ?_, rfl, heqfinalizers, heqdeleting⟩
  · exact (reads_unnamed (by simp) (by simp)).mpr hname
  · exact (reads_unnamed (by simp) (by simp)).mpr hns
  · exact (reads_unnamed (by simp) (by simp)).mpr hgeneration
  · refine reads_merged (by simp) List.mem_cons_self (by simp [Json.object])
      (accepts_field.mp hannotations.1) ?_
    have hread := dictionary_members_of_nullable (nullable_head_of_reads hannotations)
    rw [← heqannotations] at hread
    rw [Json.merge_object, Decoder.nullable_of_ne (by simp)]
    have herase := Decoder.entries_erase key hread 0
    simp only [Decoder.dictionary, Dictionary.ofList, List.foldl_cons, List.foldl_nil,
      Dictionary.insert, Json.mergeMembers_cons_null, Json.mergeMembers,
      Json.members_obj]
    rw [herase]
    rfl
  · exact (reads_unnamed (by simp) (by simp)).mpr hfinalizers
  · exact (reads_unnamed (by simp) (by simp)).mpr hdeletion

end ObjectMeta

theorem TenantRecord.decode_obj_ok_iff {members : Dictionary Json} {record : TenantRecord} :
    TenantRecord.decode (.obj members) = .ok record ↔
      (required "metadata" ObjectMeta.decode).Reads members record.metadata ∧
      (required "spec" TenantRecord.decodeSpec).Reads members record.document ∧
      (optionalMember "status" RecordStatus.decode).Reads members record.status := by
  rw [decode, decoder_obj_ok_iff]
  simp only [reads_seq, reads_map]
  constructor
  · rintro ⟨_, _, ⟨_, _, ⟨_, hmetadata, rfl⟩, hspec, rfl⟩, hstatus, rfl⟩
    exact ⟨hmetadata, hspec, hstatus⟩
  · rintro ⟨hmetadata, hspec, hstatus⟩
    exact ⟨_, _, ⟨_, _, ⟨_, hmetadata, rfl⟩, hspec, rfl⟩, hstatus, rfl⟩

namespace TenantRecord

/-- A value that the API server keeps for a record: an object that is read as this record. -/
def StoredAs (record : TenantRecord) (value : Json) : Prop :=
  ∃ members, value = .obj members ∧ decode value = .ok record

/-- What stands in the place of the status of a stored record is read as its status. -/
theorem StoredAs.nullable_status {record : TenantRecord} {value : Json}
    (hstored : record.StoredAs value) :
    Decoder.nullable RecordStatus.decode ((value.members.find? "status").getD .null) =
      .ok record.status := by
  obtain ⟨members, rfl, hdecode⟩ := hstored
  rw [Json.members_obj]
  exact nullable_head_of_reads (decode_obj_ok_iff.mp hdecode).2.2

/-- After its status was stored a record is as before but for its status, which is the one that is
read then. -/
theorem StoredAs.mergeStatus_of_decode {record : TenantRecord} {value : Json}
    (hstored : record.StoredAs value) {status kept : RecordStatus}
    (hkept : RecordStatus.decode (Json.merge (Json.object (Controller.statusMembers status))
      ((value.members.find? "status").getD .null)) = .ok kept) :
    { record with status := some kept }.StoredAs
      (Json.merge (Controller.statusChange status) value) := by
  obtain ⟨members, rfl, hdecode⟩ := hstored
  obtain ⟨hmetadata, hspec, hstatus⟩ := decode_obj_ok_iff.mp hdecode
  rw [Json.members_obj] at hkept
  refine ⟨_, Json.merge_object _ _, ?_⟩
  rw [Controller.statusChange, Json.merge_object, decode_obj_ok_iff]
  refine ⟨?_, ?_, ?_⟩
  · exact (reads_unnamed (by simp) (by simp)).mpr hmetadata
  · exact (reads_unnamed (by simp) (by simp)).mpr hspec
  · refine reads_merged (by simp) List.mem_cons_self (by simp [Json.object])
      (accepts_field.mp hstatus.1) (Decoder.nullable_ok ?_ hkept)
    rw [Json.merge_object]
    simp

/-- After its status was stored a record is as before but for its status. -/
theorem StoredAs.mergeStatus {record : TenantRecord} {value : Json}
    (hstored : record.StoredAs value) {status : RecordStatus}
    (hphase : status.phase = none → record.phase? = none) :
    ∃ kept : RecordStatus,
      { record with status := some kept }.StoredAs
        (Json.merge (Controller.statusChange status) value) ∧
      kept.phase = status.phase ∧ kept.appliedDigest = status.appliedDigest ∧
      kept.cleanupPresent = status.cleanupPresent := by
  obtain ⟨kept, hkept, heqs⟩ :=
    RecordStatus.exists_decode_merge hstored.nullable_status hphase
  exact ⟨kept, hstored.mergeStatus_of_decode hkept, heqs⟩

theorem decode_insert_metadata {members : Dictionary Json} {record : TenantRecord}
    (hdecode : decode (.obj members) = .ok record) {value : Json} {metadata : ObjectMeta}
    (hmetadata : ObjectMeta.decode value = .ok metadata) :
    decode (.obj (members.insert "metadata" value)) = .ok { record with metadata := metadata } := by
  obtain ⟨hold, hspec, hstatus⟩ := decode_obj_ok_iff.mp hdecode
  refine decode_obj_ok_iff.mpr ⟨?_, ?_, ?_⟩
  · exact reads_insert (accepts_field.mp hold.1) hmetadata
  · exact (reads_insert_of_ne (by simp) value).mpr hspec
  · exact (reads_insert_of_ne (by simp) value).mpr hstatus

/-- After no step of a migration is asked for any more, a record is as before but for that. -/
theorem StoredAs.mergeAnnotation {record : TenantRecord} {value : Json}
    (hstored : record.StoredAs value) :
    { record with
      metadata := { record.metadata with
        annotations := Dictionary.erase operationAnnotation record.metadata.annotations } }.StoredAs
      (Json.merge Controller.annotationChange value) := by
  obtain ⟨members, rfl, hdecode⟩ := hstored
  obtain ⟨hmetadata, hspec, hstatus⟩ := decode_obj_ok_iff.mp hdecode
  obtain ⟨old, hfound, hold⟩ := find?_of_reads hmetadata
  refine ⟨_, Json.merge_object _ _, ?_⟩
  rw [Controller.annotationChange, Json.merge_object, decode_obj_ok_iff]
  refine ⟨?_, ?_, ?_⟩
  · refine reads_merged (by simp) List.mem_cons_self (by simp [Json.object])
      (accepts_field.mp hmetadata.1) ?_
    rw [Json.members_obj, hfound]
    exact ObjectMeta.decode_merge_annotation hold operationAnnotation
  · exact (reads_unnamed (by simp) (by simp)).mpr hspec
  · exact (reads_unnamed (by simp) (by simp)).mpr hstatus

end TenantRecord

section Finalizers

open Controller

/-- A change at a place within the metadata of a record is a change of its metadata. -/
theorem TenantRecord.StoredAs.changeAt {record : TenantRecord} {value changed : Json}
    (hstored : record.StoredAs value) {change : Json → String → Option Json} {key : String}
    {place : List String}
    (hchange : value.changeAt change ("metadata" :: key :: place) = some changed) :
    ∃ members new, ObjectMeta.decode (.obj members) = .ok record.metadata ∧
      (Json.obj members).changeAt change (key :: place) = some new ∧
      ∀ metadata, ObjectMeta.decode new = .ok metadata →
        { record with metadata := metadata }.StoredAs changed := by
  obtain ⟨members, rfl, hdecode⟩ := hstored
  obtain ⟨hmetadata, -, -⟩ := TenantRecord.decode_obj_ok_iff.mp hdecode
  obtain ⟨old, hfound, hold⟩ := find?_of_reads hmetadata
  obtain ⟨member, new, hmember, hnew, rfl⟩ := Json.changeAt_obj hchange
  obtain rfl : old = member := Option.some.inj (hfound.symm.trans hmember)
  obtain ⟨inner, _, _, _, rfl, -⟩ := ObjectMeta.decode_ok_iff.mp hold
  refine ⟨inner, new, hold, hnew, ?_⟩
  intro metadata hnewMetadata
  exact ⟨_, rfl, TenantRecord.decode_insert_metadata hdecode hnewMetadata⟩

/-- Finalizers are kept as a list, unless there are none. -/
theorem exists_finalizerItems {value : Json} {found : Option (List String)}
    (hread : Decoder.nullable (Decoder.list Decoder.text) value = .ok found)
    (hvalue : value ≠ .null) :
    ∃ items, value = .arr items ∧ items.map Decoder.text = (found.getD []).map .ok := by
  rw [Decoder.nullable_of_ne hvalue] at hread
  cases value with
  | arr items =>
      cases hitems : Decoder.items Decoder.text 0 items with
      | ok texts =>
          simp only [Decoder.list, hitems] at hread
          cases hread
          exact ⟨items, rfl, Decoder.items_ok_iff.mp hitems⟩
      | error mismatch =>
          simp only [Decoder.list, hitems] at hread
          cases hread
  | null => exact absurd rfl hvalue
  | _ => simp [Decoder.list, Except.map] at hread

/-- Finalizers are read from any list of their texts. -/
theorem nullable_finalizerItems {items : List Json} {texts : List String}
    (hitems : items.map Decoder.text = texts.map .ok) :
    Decoder.nullable (Decoder.list Decoder.text) (.arr items) = .ok (some texts) :=
  Decoder.nullable_ok (by simp) (Decoder.items_ok_iff.mpr hitems)

/-- Finalizers that are kept are none, or a list of their texts. -/
theorem ObjectMeta.kept_finalizers {members : Dictionary Json} {metadata : ObjectMeta} {list : Json}
    (hdecode : decode (.obj members) = .ok metadata)
    (hfound : members.find? "finalizers" = some list) :
    (list = .null ∧ metadata.finalizers = []) ∨
      ∃ items, list = .arr items ∧ items.map Decoder.text = metadata.finalizers.map .ok := by
  obtain ⟨_, _, finalizers, _, heq, -, -, -, -, hfinalizers, -, -, heqfinalizers, -⟩ :=
    decode_ok_iff.mp hdecode
  cases heq
  have hread := nullable_head_of_reads hfinalizers
  rw [hfound, Option.getD_some] at hread
  rw [heqfinalizers]
  by_cases hnull : list = .null
  · rw [hnull] at hread
    cases hread
    exact Or.inl ⟨hnull, rfl⟩
  · exact Or.inr (exists_finalizerItems hread hnull)

/-- After its finalizer was added a record is as before but for that. -/
theorem TenantRecord.StoredAs.addFinalizer {record : TenantRecord} {value changed : Json}
    (hstored : record.StoredAs value)
    (hpatch : Json.patchAll (Controller.addFinalizer record.metadata.finalizers) value =
      some changed) :
    { record with
      metadata := { record.metadata with
        finalizers := record.metadata.finalizers ++ [finalizerName] } }.StoredAs changed := by
  by_cases hnone : record.metadata.finalizers = []
  · rw [Controller.addFinalizer, if_pos hnone] at hpatch
    have hadd := Json.patchAll_test hpatch
    rw [Json.patchAll_singleton] at hadd
    obtain ⟨members, new, hold, hnew, hrebuild⟩ := hstored.changeAt hadd
    cases hnew
    have hread : Decoder.nullable (Decoder.list Decoder.text) (Json.texts [finalizerName]) =
        .ok (some [finalizerName]) := nullable_finalizerItems rfl
    rw [hnone]
    exact hrebuild _ (ObjectMeta.decode_insert_finalizers hold hread)
  · rw [Controller.addFinalizer, if_neg hnone] at hpatch
    have hadd := Json.patchAll_test hpatch
    rw [Json.patchAll_singleton] at hadd
    obtain ⟨members, new, hold, hnew, hrebuild⟩ := hstored.changeAt hadd
    obtain ⟨list, longer, hfound, hlonger, rfl⟩ := Json.changeAt_obj hnew
    rcases ObjectMeta.kept_finalizers hold hfound with ⟨-, hempty⟩ | ⟨items, rfl, hitems⟩
    · exact absurd hempty hnone
    · cases hlonger
      refine hrebuild _ (ObjectMeta.decode_insert_finalizers hold (nullable_finalizerItems ?_))
      rw [List.map_append, hitems, List.map_append]
      rfl

/-- After a finalizer was removed a record is as before but for that. -/
theorem TenantRecord.StoredAs.removeFinalizer {record : TenantRecord} {value changed : Json}
    (hstored : record.StoredAs value) {position : Nat}
    (hpatch : Json.patchAll (Controller.removeFinalizer position) value = some changed) :
    ∃ place, { record with
      metadata := { record.metadata with
        finalizers := record.metadata.finalizers.eraseIdx place } }.StoredAs changed := by
  have hremove := Json.patchAll_test hpatch
  rw [Json.patchAll_singleton] at hremove
  obtain ⟨members, new, hold, hnew, hrebuild⟩ := hstored.changeAt hremove
  obtain ⟨list, shorter, hfound, hshorter, rfl⟩ := Json.changeAt_obj hnew
  rcases ObjectMeta.kept_finalizers hold hfound with ⟨rfl, -⟩ | ⟨items, rfl, hitems⟩
  · cases hshorter
  · obtain ⟨place, -, hplace⟩ := Option.bind_eq_some_iff.mp hshorter
    split at hplace
    · cases hplace
      refine ⟨place, ?_⟩
      refine hrebuild _ (ObjectMeta.decode_insert_finalizers hold (nullable_finalizerItems ?_))
      rw [← List.eraseIdx_map, hitems, List.eraseIdx_map]
    · cases hplace

/-- Operations that change the finalizers of a record, and nothing beside them. -/
def OnFinalizers (operations : List PatchOperation) : Prop :=
  ∀ {value changed : Json}, Json.patchAll operations value = some changed →
    ∃ change place, Json.Local change ∧
      value.changeAt change ("metadata" :: "finalizers" :: place) = some changed

theorem onFinalizers_addFinalizer (present : List String) :
    OnFinalizers (addFinalizer present) := by
  intro value changed hpatch
  rw [addFinalizer] at hpatch
  split at hpatch
  all_goals
    have hadd := Json.patchAll_test hpatch
    rw [Json.patchAll_singleton] at hadd
    exact ⟨_, _, Json.local_addTo _, hadd⟩

theorem onFinalizers_removeFinalizer (position : Nat) : OnFinalizers (removeFinalizer position) := by
  intro value changed hpatch
  have hremove := Json.patchAll_test hpatch
  rw [Json.patchAll_singleton] at hremove
  exact ⟨_, _, Json.local_removeFrom, hremove⟩

end Finalizers

end LogForwarding
