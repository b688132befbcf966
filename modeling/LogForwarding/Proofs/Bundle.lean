import LogForwarding.Bundle.Codec
import LogForwarding.Proofs.Collection
import LogForwarding.Proofs.Json

/-!
A bundle brings a set of artifacts without loss.  What is wanted of a bundle is read back from its
JSON and from the text of its JSON, and the set of artifacts that it was made of is put together again
from what was read.
-/

namespace LogForwarding

open Fields

/-! ### What is written is read back -/

theorem InlineContent.decode_toJson (content : InlineContent) :
    decode content.toJson = .ok content := by
  rw [decode, toJson, Json.ofFields_eq, decoder_obj_ok_iff]
  simp only [reads_seq, reads_map]
  refine ⟨_, _, ⟨_, ?_, rfl⟩, reads_given (by simp) (by simp) (Decoder.text_str content.data), rfl⟩
  by_cases hplain : content.encoding = ""
  · exact reads_left_out (by simp) (by simp [hplain]) (by rw [hplain])
  · exact reads_given (by simp) (by simp [hplain]) (Decoder.text_str content.encoding)

theorem SecretKeyRef.decode_toJson (ref : SecretKeyRef) : decode ref.toJson = .ok ref := by
  rw [decode, toJson, Json.object, decoder_obj_ok_iff]
  simp only [reads_seq, reads_map]
  exact ⟨_, _, ⟨_, reads_named (by simp) (by simp) (Decoder.text_str ref.name), rfl⟩,
    reads_named (by simp) (by simp) (Decoder.text_str ref.key), rfl⟩

theorem BundleContent.decode_toJson (content : BundleContent) :
    decode content.toJson = .ok content := by
  rw [decode, toJson, Json.ofFields_eq, decoder_obj_ok_iff]
  simp only [reads_seq, reads_map]
  exact ⟨_, _, ⟨_, reads_option (by simp) (fun _ => Json.noConfusion) InlineContent.decode_toJson
      (by simp), rfl⟩,
    reads_option (by simp) (fun _ => Json.noConfusion) SecretKeyRef.decode_toJson (by simp), rfl⟩

theorem BundleFile.decode_toJson (file : BundleFile) : decode file.toJson = .ok file := by
  rw [decode, toJson, Json.object, decoder_obj_ok_iff]
  simp only [reads_seq, reads_map]
  exact ⟨_, _, ⟨_, _, ⟨_, reads_named (by simp) (by simp) (Decoder.text_str file.path), rfl⟩,
      reads_named (by simp) (by simp) (Decoder.word32_toNat file.permissions), rfl⟩,
    reads_named (by simp) (by simp) file.content.decode_toJson, rfl⟩

theorem BundleUnit.decode_toJson (unit : BundleUnit) : decode unit.toJson = .ok unit := by
  rw [decode, toJson, Json.ofFields_eq, decoder_obj_ok_iff]
  simp only [reads_seq, reads_map]
  exact ⟨_, _, ⟨_, _, ⟨_, reads_given (by simp) (by simp) (Decoder.text_str unit.name), rfl⟩,
      reads_given (by simp) (by simp) (Decoder.boolean_bool unit.enable), rfl⟩,
    reads_option (by simp) (fun _ => Json.noConfusion) Decoder.text_str (by simp), rfl⟩

theorem BundleSpec.decode_toJson (spec : BundleSpec) : decode spec.toJson = .ok spec := by
  have hmanifests : Decoder.list Decoder.any (.arr spec.payload.manifests) =
      .ok spec.payload.manifests := by
    have hlist : Decoder.list Decoder.any (.arr (spec.payload.manifests.map id)) =
        .ok spec.payload.manifests := Decoder.list_map (fun _ => rfl) _
    rwa [List.map_id] at hlist
  rw [decode, toJson, Json.object, BundlePayload.fields, BundlePayload.members, decoder_obj_ok_iff]
  simp only [reads_seq, reads_map]
  refine ⟨_, _, ⟨spec.payload, ⟨_, _, ⟨_, _, ⟨_, ?_, rfl⟩, ?_, rfl⟩, ?_, rfl⟩, rfl⟩, ?_, rfl⟩
  · exact reads_named (by simp) (by simp) (Decoder.list_map BundleFile.decode_toJson _)
  · exact reads_named (by simp) (by simp) (Decoder.list_map BundleUnit.decode_toJson _)
  · exact reads_named (by simp) (by simp) hmanifests
  · exact reads_named (by simp) (by simp) (Decoder.boolean_bool spec.keepObjects)

/-! ### The text of a bundle -/

theorem InlineContent.exact_toJson (content : InlineContent) : content.toJson.Exact := by
  refine .ofFields (by simp) ?_
  by_cases hplain : content.encoding = ""
  · simp [hplain, Json.Exact.str]
  · simp [hplain, Json.Exact.str]

theorem SecretKeyRef.exact_toJson (ref : SecretKeyRef) : ref.toJson.Exact := by
  refine .object (by simp) ?_
  simp [Json.Exact.str]

theorem BundleContent.exact_toJson (content : BundleContent) : content.toJson.Exact := by
  refine .ofFields (by simp) ?_
  simp only [List.forall_mem_cons]
  exact ⟨.option InlineContent.exact_toJson, .option SecretKeyRef.exact_toJson, List.forall_mem_nil _⟩

theorem BundleFile.exact_toJson (file : BundleFile) : file.toJson.Exact := by
  have hbits : Yaml.fitsWord file.permissions.toNat := by
    have hhigh := file.permissions.toNat_lt
    simp only [Yaml.fitsWord, decide_eq_true_eq, UInt64.size]
    omega
  refine .object (by simp) ?_
  simp [Json.Exact.str, Json.Exact.int hbits, file.content.exact_toJson]

theorem BundleUnit.exact_toJson (unit : BundleUnit) : unit.toJson.Exact := by
  refine .ofFields (by simp) ?_
  simp only [List.forall_mem_cons]
  refine ⟨?_, ?_, .option Json.Exact.str, List.forall_mem_nil _⟩
  · rintro _ ⟨⟩
    exact .str unit.name
  · rintro _ ⟨⟩
    exact .bool unit.enable

theorem BundleSpec.exact_toJson {spec : BundleSpec}
    (hmanifests : ∀ manifest ∈ spec.payload.manifests, manifest.Exact) : spec.toJson.Exact := by
  refine .object (by simp [BundlePayload.members]) ?_
  simp only [BundlePayload.members, List.cons_append, List.nil_append, List.forall_mem_cons]
  exact ⟨.list BundleFile.exact_toJson _, .list BundleUnit.exact_toJson _, .arr hmanifests,
    .bool spec.keepObjects, List.forall_mem_nil _⟩

/-! ### What was brought -/

/-- The source of what stands in a bundle. -/
def BundleContent.source? : BundleContent → Option ArtifactSource
  | ⟨some content, none⟩ =>
      if content.encoding = "" then some (.inline .plain content.data)
      else if content.encoding = "b64" then some (.inline .base64 content.data)
      else none
  | ⟨none, some ref⟩ => some (.secretKey ref.name ref.key)
  | _ => none

/-- The artifact that a file of a bundle brings. -/
def BundleFile.artifact? (file : BundleFile) : Option Artifact := do
  let permissions ← FileMode.ofBits? file.permissions
  let source ← file.content.source?
  return ⟨file.path, permissions, source⟩

/-- The unit that a unit of a bundle brings. -/
def BundleUnit.unit? (unit : BundleUnit) : Option UnitDef :=
  unit.content.map fun content => ⟨unit.name, unit.enable, content⟩

/-- The set of artifacts that a bundle brings. -/
def BundlePayload.artifacts? (payload : BundlePayload) : Option ArtifactSet := do
  let files ← payload.files.mapM BundleFile.artifact?
  let units ← payload.units.mapM BundleUnit.unit?
  let set ← (ArtifactSet.empty.addAll files).toOption
  (units.foldlM ArtifactSet.addUnit set).toOption

theorem BundleContent.source?_ofSource (source : ArtifactSource) :
    (ofSource source).source? = some source := by
  cases source with
  | inline encoding data => cases encoding <;> rfl
  | secretKey secretName key => rfl

theorem BundleFile.artifact?_ofArtifact (artifact : Artifact) :
    (ofArtifact artifact).artifact? = some artifact := by
  simp [artifact?, ofArtifact, FileMode.ofBits?_bits, BundleContent.source?_ofSource]

theorem BundleUnit.unit?_ofUnit (unit : UnitDef) : (ofUnit unit).unit? = some unit := rfl

namespace ArtifactSet

variable {set : ArtifactSet}

/-- Units of new names are appended. -/
theorem addUnits_eq {units : List UnitDef}
    (hnodup : ((set.units ++ units).map UnitDef.name).Nodup) :
    units.foldlM addUnit set = .ok ⟨set.files, set.units ++ units⟩ := by
  induction units generalizing set with
  | nil => simp [pure, Except.pure]
  | cons unit units ih =>
      have happend : set.units ++ unit :: units = set.units ++ [unit] ++ units := by simp
      have hfresh : unit.name ∉ set.units.map UnitDef.name := by
        rw [List.map_append, List.nodup_append] at hnodup
        intro hmem
        exact hnodup.2.2 _ hmem _ (by simp) rfl
      have hadded : set.addUnit unit = .ok ⟨set.files, set.units ++ [unit]⟩ :=
        addUnit_eq_ok_iff.mpr ⟨hfresh, rfl⟩
      rw [happend] at hnodup ⊢
      rw [List.foldlM_cons, hadded]
      exact ih hnodup

/-- The files of a set can be added again, one after the other. -/
theorem WellFormed.addAll_fileList (hset : set.WellFormed) :
    empty.addAll set.fileList = .ok ⟨set.files, []⟩ := by
  have hpaths : ∀ file ∈ set.fileList, file.path ∈ Dictionary.keys set.files := by
    intro file hmem
    rw [hset.keys_eq]
    exact List.mem_map_of_mem hmem
  have hnodup : (set.fileList.map Artifact.path).Nodup := hset.keys_eq ▸ hset.ordered.nodup_keys
  have hentries : set.fileList.map (fun file => (file.path, file)) = set.files := by
    rw [fileList, Dictionary.values, List.map_map]
    refine (List.map_congr_left ?_).trans (List.map_id _)
    intro entry hmem
    exact Prod.ext (hset.keyed entry hmem).symm rfl
  obtain ⟨result, hadded, hfiles, hunits⟩ := exists_addAll
    (fun file hmem => hset.absolute _ (hpaths file hmem)) hnodup empty fun _ _ => List.not_mem_nil
  have hordered := (wellFormed_empty.addAll hadded).ordered
  rw [hentries, show empty.files = [] from rfl, List.append_nil] at hfiles
  obtain ⟨files, units⟩ := result
  obtain rfl : files = set.files := hordered.eq_of_perm hset.ordered hfiles
  obtain rfl : units = [] := hunits
  exact hadded

end ArtifactSet

open ArtifactSet

/-- The set of artifacts that a bundle was made of is the one that it brings. -/
theorem BundlePayload.artifacts?_ofArtifacts {set : ArtifactSet} (hset : set.WellFormed) :
    (ofArtifacts set).artifacts? = some set := by
  have hfiles := mapM_map_eq_some fun artifact (_ : artifact ∈ set.fileList) =>
    BundleFile.artifact?_ofArtifact artifact
  have hunits := mapM_map_eq_some fun unit (_ : unit ∈ set.units) => BundleUnit.unit?_ofUnit unit
  have hadded : set.units.foldlM addUnit ⟨set.files, []⟩ =
      .ok ⟨set.files, [] ++ set.units⟩ := addUnits_eq hset.distinct
  rw [List.map_id'] at hfiles hunits
  rw [artifacts?, ofArtifacts, hfiles, hunits, Option.bind_eq_bind, Option.bind_some,
    Option.bind_eq_bind, Option.bind_some, hset.addAll_fileList]
  simp only [Except.toOption, Option.bind_eq_bind, Option.bind_some, hadded, List.nil_append]

/-- What is wanted of a bundle that brings a set of artifacts. -/
def BundleSpec.bringing (set : ArtifactSet) (keepObjects : Bool) : BundleSpec :=
  ⟨.ofArtifacts set, keepObjects⟩

/-- What is wanted of a bundle tells a set of artifacts, also when it has been written and read. -/
structure BundleSpec.Carries (spec : BundleSpec) (set : ArtifactSet) : Prop where
  decoded : BundleSpec.decode spec.toJson = .ok spec
  printed : Json.read? spec.toJson.print = some spec.toJson
  /-- The files stand in the order of the bytes of their paths. -/
  ordered : ((spec.payload.files.map BundleFile.path).map Bytes.ofText).Pairwise (· < ·)
  /-- Content is found in one of two places, and not in both. -/
  placed : ∀ file ∈ spec.payload.files, file.content.inline.isSome = file.content.secret.isNone
  /-- The set is put together again. -/
  rebuilt : spec.payload.artifacts? = some set

theorem ArtifactSet.WellFormed.carried {set : ArtifactSet} (hset : set.WellFormed)
    (keepObjects : Bool) : (BundleSpec.bringing set keepObjects).Carries set where
  decoded := BundleSpec.decode_toJson _
  printed := (BundleSpec.exact_toJson (List.forall_mem_nil _)).read?_print
  ordered := by
    have hpaths : (set.fileList.map BundleFile.ofArtifact).map BundleFile.path =
        set.fileList.map Artifact.path := List.map_map
    exact hpaths ▸ hset.paths_ordered
  placed := by
    intro file hmem
    obtain ⟨artifact, -, rfl⟩ := List.mem_map.mp hmem
    obtain ⟨path, permissions, source⟩ := artifact
    cases source with
    | inline encoding data => cases encoding <;> rfl
    | secretKey secretName key => rfl
  rebuilt := BundlePayload.artifacts?_ofArtifacts hset

/-- Of two bundles whose texts are the same, both bring the same artifacts. -/
theorem BundleSpec.Carries.eq_of_print_eq {spec spec' : BundleSpec} {set set' : ArtifactSet}
    (hspec : spec.Carries set) (hspec' : spec'.Carries set')
    (hprint : spec.toJson.print = spec'.toJson.print) : spec = spec' ∧ set = set' := by
  have hjson : spec.toJson = spec'.toJson := by
    have hread := hspec.printed
    rw [hprint, hspec'.printed] at hread
    exact (Option.some.inj hread).symm
  have heq : spec = spec' := by
    have hdecoded := hspec.decoded
    rw [hjson, hspec'.decoded] at hdecoded
    exact (Except.ok.inj hdecoded).symm
  subst heq
  exact ⟨rfl, Option.some.inj (hspec.rebuilt.symm.trans hspec'.rebuilt)⟩

/-- However a set of artifacts was put together, what is wanted of its bundle is read back from its
JSON and from the text of its JSON.  The files stand in the order of their paths, each with its content
in one place, the units stand in the order in which they were declared, and the set is put together
again from them, so no other set has a bundle of the same text. -/
theorem bundle_carries_artifacts (additions : List Addition) (keepObjects : Bool) :
    (BundleSpec.bringing (empty.collect additions) keepObjects).Carries
        (empty.collect additions) ∧
      (BundleSpec.bringing (empty.collect additions) keepObjects).payload.units =
        ((empty.accepted additions).filterMap Addition.unit?).map BundleUnit.ofUnit ∧
      ∀ others keepOthers,
        (BundleSpec.bringing (empty.collect others) keepOthers).toJson.print =
            (BundleSpec.bringing (empty.collect additions) keepObjects).toJson.print →
          empty.collect others = empty.collect additions ∧ keepOthers = keepObjects := by
  have hcarried := (wellFormed_empty.collect additions).carried keepObjects
  refine ⟨hcarried, ?_, ?_⟩
  · have hunits := (contents_collect empty additions).2
    rw [BundleSpec.bringing, BundlePayload.ofArtifacts, hunits]
    rfl
  · intro others keepOthers hprint
    have hothers := (wellFormed_empty.collect others).carried keepOthers
    obtain ⟨hspec, hset⟩ := hothers.eq_of_print_eq hcarried hprint
    exact ⟨hset, congrArg BundleSpec.keepObjects hspec⟩

/-- The same artifacts, added in another order, make the same text. -/
theorem sample_carried :
    (BundleSpec.bringing (empty.collect Addition.sample) false).payload.artifacts? =
        some (empty.collect Addition.sample) ∧
      empty.collect
          [.unit ⟨"x.service", true, ""⟩, .file "/etc/rsyslog.d/a" .secret (.secretKey "s" "ca"),
            .file "/etc/rsyslog.d/b" .readable (.plain "b")] =
        empty.collect Addition.sample := by
  obtain ⟨hcarries, -, hsame⟩ := bundle_carries_artifacts Addition.sample false
  exact ⟨hcarries.rebuilt, (hsame _ false (by decide +kernel)).1⟩

end LogForwarding
