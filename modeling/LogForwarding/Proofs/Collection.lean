import LogForwarding.Proofs.Bytes
import LogForwarding.Proofs.Schema
import LogForwarding.Proofs.Synthesis

/-!
How a set of artifacts grows.  Files and units are added one by one, and what is refused leaves the
set alone.  Whatever was added, the files stay in the order of their paths, so those that begin with
some text stand together, and the units stay in the order in which they were added.
-/

namespace LogForwarding

/-! ### Texts that begin alike -/

theorem beginsWith_iff {text start : String} :
    beginsWith text start ↔ start.toList <+: text.toList :=
  List.isPrefixOf_iff_prefix

theorem not_append_lt (start rest : List Char) : ¬ start ++ rest < start := by
  induction start with
  | nil => exact List.not_lt_nil _
  | cons c start ih =>
      rw [List.cons_append, List.cons_lt_cons_iff]
      rintro (hlt | ⟨-, hlt⟩)
      · exact Char.lt_irrefl c hlt
      · exact ih hlt

/-- Between a text and a longer one that begins with it every text begins with it. -/
theorem prefix_of_between {start cs rest : List Char} (hlow : ¬ cs < start)
    (hhigh : cs < start ++ rest) : start <+: cs := by
  induction start generalizing cs with
  | nil => exact List.nil_prefix
  | cons c start ih =>
      cases cs with
      | nil => exact absurd (List.nil_lt_cons c start) hlow
      | cons d cs =>
          rw [List.cons_lt_cons_iff] at hlow
          rw [List.cons_append, List.cons_lt_cons_iff] at hhigh
          rcases hhigh with hlt | ⟨rfl, hrest⟩
          · exact absurd (Or.inl hlt) hlow
          · have hbegins := ih (fun hlt => hlow (Or.inr ⟨rfl, hlt⟩)) hrest
            exact List.cons_prefix_cons.mpr ⟨rfl, hbegins⟩

theorem not_lt_of_beginsWith {text start : String} (hbegins : beginsWith text start) :
    ¬ text < start := by
  obtain ⟨rest, heq⟩ := beginsWith_iff.mp hbegins
  intro hlt
  have hchars : text.toList < start.toList := hlt
  rw [← heq] at hchars
  exact not_append_lt start.toList rest hchars

theorem beginsWith_of_between {text later start : String} (hlow : ¬ text < start)
    (hhigh : text < later) (hlater : beginsWith later start) : beginsWith text start := by
  obtain ⟨rest, heq⟩ := beginsWith_iff.mp hlater
  have hchars : text.toList < later.toList := hhigh
  rw [← heq] at hchars
  exact beginsWith_iff.mpr (prefix_of_between hlow hchars)

/-- Behind the texts that are less than some text those that begin with it come first. -/
theorem takeWhile_beginsWith {texts : List String} {start : String}
    (hordered : texts.Pairwise (· < ·)) (hlow : ∀ text ∈ texts, ¬ text < start) :
    (texts.takeWhile fun text => beginsWith text start) =
      texts.filter fun text => beginsWith text start := by
  induction texts with
  | nil => rfl
  | cons text rest ih =>
      obtain ⟨hfirst, hrest⟩ := List.pairwise_cons.mp hordered
      obtain ⟨hlowText, hlowRest⟩ := List.forall_mem_cons.mp hlow
      by_cases hbegins : beginsWith text start
      · rw [List.takeWhile_cons, if_pos hbegins, List.filter_cons, if_pos hbegins, ih hrest hlowRest]
      · rw [List.takeWhile_cons, if_neg hbegins, List.filter_cons, if_neg hbegins]
        refine (List.filter_eq_nil_iff.mpr fun later hmem hlater => hbegins ?_).symm
        exact beginsWith_of_between hlowText (hfirst later hmem) hlater

/-- In order, the texts that begin with some text stand together where that text would stand. -/
theorem takeWhile_dropWhile_beginsWith {texts : List String} (hordered : texts.Pairwise (· < ·))
    (start : String) :
    ((texts.dropWhile fun text => text < start).takeWhile fun text => beginsWith text start) =
      texts.filter fun text => beginsWith text start := by
  induction texts with
  | nil => rfl
  | cons text rest ih =>
      obtain ⟨hfirst, hrest⟩ := List.pairwise_cons.mp hordered
      by_cases hlt : text < start
      · have hbegins : ¬ beginsWith text start := fun hbegins => not_lt_of_beginsWith hbegins hlt
        rw [List.dropWhile_cons, if_pos (decide_eq_true hlt), List.filter_cons, if_neg hbegins,
          ih hrest]
      · rw [List.dropWhile_cons, if_neg (by simpa using hlt)]
        refine takeWhile_beginsWith hordered (List.forall_mem_cons.mpr ⟨hlt, ?_⟩)
        exact fun later hmem hbefore => hlt (String.lt_trans (hfirst later hmem) hbefore)

/-! ### Additions -/

/-- What may be added to a set of artifacts. -/
inductive Addition where
  | file (path : String) (permissions : FileMode) (source : ArtifactSource)
  | unit (unit : UnitDef)
deriving DecidableEq, Repr, Inhabited

namespace Addition

/-- The file that is to be added. -/
def file? : Addition → Option Artifact
  | .file path permissions source => some ⟨path, permissions, source⟩
  | .unit _ => none

/-- The unit that is to be added. -/
def unit? : Addition → Option UnitDef
  | .file _ _ _ => none
  | .unit added => some added

end Addition

namespace ArtifactSet

/-- Adds a file or a unit. -/
def add (set : ArtifactSet) : Addition → Except SynthesisError ArtifactSet
  | .file path permissions source => set.addFile path permissions source
  | .unit unit => set.addUnit unit

/-- The set after some additions, of which those that are refused leave it alone. -/
def collect (set : ArtifactSet) : List Addition → ArtifactSet
  | [] => set
  | addition :: rest =>
      match set.add addition with
      | .ok more => more.collect rest
      | .error _ => set.collect rest

/-- Those of some additions that are not refused, in their order. -/
def accepted (set : ArtifactSet) : List Addition → List Addition
  | [] => []
  | addition :: rest =>
      match set.add addition with
      | .ok more => addition :: more.accepted rest
      | .error _ => set.accepted rest

/-- Every file stands under its own absolute path, in the order of the paths, and no two units have
one name. -/
structure WellFormed (set : ArtifactSet) : Prop where
  keyed : ∀ entry ∈ set.files, entry.1 = entry.2.path
  absolute : ∀ path ∈ Dictionary.keys set.files, beginsWith path "/"
  ordered : Dictionary.Ordered set.files
  distinct : (set.units.map UnitDef.name).Nodup

variable {set result : ArtifactSet}

theorem addFile_eq_ok_iff {path : String} {permissions : FileMode} {source : ArtifactSource} :
    set.addFile path permissions source = .ok result ↔
      beginsWith path "/" ∧ path ∉ Dictionary.keys set.files ∧
        result = ⟨Dictionary.insert path ⟨path, permissions, source⟩ set.files, set.units⟩ := by
  have hcontains : Dictionary.contains set.files path ↔ path ∈ Dictionary.keys set.files := by
    simp [Dictionary.contains, Dictionary.keys]
  rw [addFile]
  by_cases habsolute : beginsWith path "/"
  · rw [if_neg (Decidable.not_not.mpr habsolute)]
    by_cases htaken : path ∈ Dictionary.keys set.files
    · rw [if_pos (hcontains.mpr htaken)]
      refine iff_of_false ?_ fun hadded => hadded.2.1 htaken
      intro hadded
      cases hadded
    · rw [if_neg (fun hfound => htaken (hcontains.mp hfound))]
      constructor
      · intro hadded
        exact ⟨habsolute, htaken, (Except.ok.inj hadded).symm⟩
      · rintro ⟨-, -, rfl⟩
        rfl
  · rw [if_pos habsolute]
    refine iff_of_false ?_ fun hadded => habsolute hadded.1
    intro hadded
    cases hadded

theorem addUnit_eq_ok_iff {unit : UnitDef} :
    set.addUnit unit = .ok result ↔
      unit.name ∉ set.units.map UnitDef.name ∧ result = ⟨set.files, set.units ++ [unit]⟩ := by
  have hany : (set.units.any fun u => u.name = unit.name) ↔
      unit.name ∈ set.units.map UnitDef.name := by
    simp
  rw [addUnit]
  by_cases htaken : unit.name ∈ set.units.map UnitDef.name
  · rw [if_pos (hany.mpr htaken)]
    refine iff_of_false ?_ fun hadded => hadded.1 htaken
    intro hadded
    cases hadded
  · rw [if_neg (fun hfound => htaken (hany.mp hfound))]
    constructor
    · intro hadded
      exact ⟨htaken, (Except.ok.inj hadded).symm⟩
    · rintro ⟨-, rfl⟩
      rfl

/-! ### What every set is like -/

theorem wellFormed_empty : empty.WellFormed :=
  ⟨List.forall_mem_nil _, List.forall_mem_nil _, List.Pairwise.nil, List.nodup_nil⟩

/-- What one addition keeps. -/
theorem WellFormed.add (hset : set.WellFormed) {addition : Addition}
    (hadded : set.add addition = .ok result) : result.WellFormed := by
  obtain ⟨hkeyed, habsolute, hordered, hdistinct⟩ := hset
  cases addition with
  | file path permissions source =>
      obtain ⟨hpath, hfresh, rfl⟩ := addFile_eq_ok_iff.mp hadded
      refine ⟨?_, ?_, Dictionary.ordered_insert hordered, hdistinct⟩
      · intro entry hmem
        have hentry := (Dictionary.insert_perm hfresh _).mem_iff.mp hmem
        rcases List.mem_cons.mp hentry with rfl | hold
        · rfl
        · exact hkeyed entry hold
      · intro other hmem
        rcases Dictionary.mem_keys_insert.mp hmem with rfl | hold
        · exact hpath
        · exact habsolute other hold
  | unit unit =>
      obtain ⟨hfresh, rfl⟩ := addUnit_eq_ok_iff.mp hadded
      refine ⟨hkeyed, habsolute, hordered, ?_⟩
      rw [List.map_append, List.nodup_append]
      refine ⟨hdistinct, List.nodup_singleton _, ?_⟩
      rintro name hname other hother rfl
      rw [List.map_singleton, List.mem_singleton] at hother
      exact hfresh (hother ▸ hname)

/-- What all additions keep. -/
theorem WellFormed.collect (hset : set.WellFormed) (additions : List Addition) :
    (set.collect additions).WellFormed := by
  induction additions generalizing set with
  | nil => exact hset
  | cons addition rest ih =>
      rw [ArtifactSet.collect]
      cases hadded : set.add addition with
      | ok more => exact ih (hset.add hadded)
      | error error => exact ih hset

/-- The files and units of a set are those that it had and those that were accepted. -/
theorem contents_collect (set : ArtifactSet) (additions : List Addition) :
    (set.collect additions).fileList.Perm
        ((set.accepted additions).filterMap Addition.file? ++ set.fileList) ∧
      (set.collect additions).units =
        set.units ++ (set.accepted additions).filterMap Addition.unit? := by
  induction additions generalizing set with
  | nil => exact ⟨List.Perm.refl _, (List.append_nil _).symm⟩
  | cons addition rest ih =>
      rw [collect, accepted]
      cases hadded : set.add addition with
      | error error => exact ih set
      | ok more =>
          obtain ⟨hfiles, hunits⟩ := ih more
          dsimp only
          cases addition with
          | file path permissions source =>
              obtain ⟨-, hfresh, rfl⟩ := addFile_eq_ok_iff.mp hadded
              have hmore := (Dictionary.insert_perm hfresh ⟨path, permissions, source⟩).map Prod.snd
              exact ⟨hfiles.trans ((hmore.append_left _).trans List.perm_middle), hunits⟩
          | unit unit =>
              obtain ⟨-, rfl⟩ := addUnit_eq_ok_iff.mp hadded
              refine ⟨hfiles, hunits.trans ?_⟩
              simp [Addition.unit?]

theorem collect_append (set : ArtifactSet) (first rest : List Addition) :
    set.collect (first ++ rest) = (set.collect first).collect rest := by
  induction first generalizing set with
  | nil => rfl
  | cons addition first ih =>
      rw [List.cons_append, collect, collect]
      cases set.add addition with
      | ok more => exact ih more
      | error error => exact ih set

/-! ### Files in another order -/

/-- Files that were all added have absolute paths, which differ and are new. -/
theorem addable_of_addAll {files : List Artifact} (hadded : set.addAll files = .ok result) :
    (∀ file ∈ files, beginsWith file.path "/") ∧ (files.map Artifact.path).Nodup ∧
      ∀ file ∈ files, file.path ∉ Dictionary.keys set.files := by
  induction files generalizing set with
  | nil => exact ⟨List.forall_mem_nil _, List.nodup_nil, List.forall_mem_nil _⟩
  | cons file rest ih =>
      obtain ⟨more, hfile, hrest⟩ := bind_eq_ok.mp hadded
      obtain ⟨habsolute, hnew, rfl⟩ := addFile_eq_ok_iff.mp hfile
      obtain ⟨habsoluteRest, hnodup, hnewRest⟩ := ih hrest
      have hlater : ∀ later ∈ rest, later.path ≠ file.path ∧
          later.path ∉ Dictionary.keys set.files := by
        intro later hmem
        have hfresh := hnewRest later hmem
        rw [Dictionary.mem_keys_insert, not_or] at hfresh
        exact hfresh
      refine ⟨List.forall_mem_cons.mpr ⟨habsolute, habsoluteRest⟩, ?_,
        List.forall_mem_cons.mpr ⟨hnew, fun later hmem => (hlater later hmem).2⟩⟩
      rw [List.map_cons, List.nodup_cons]
      refine ⟨?_, hnodup⟩
      intro hmem
      obtain ⟨later, hlaterMem, heq⟩ := List.mem_map.mp hmem
      exact (hlater later hlaterMem).1 heq

theorem WellFormed.addAll (hset : set.WellFormed) {files : List Artifact}
    (hadded : set.addAll files = .ok result) : result.WellFormed := by
  induction files generalizing set with
  | nil =>
      cases hadded
      exact hset
  | cons file rest ih =>
      obtain ⟨more, hfile, hrest⟩ := bind_eq_ok.mp hadded
      have hadd : set.add (.file file.path file.permissions file.source) = .ok more := hfile
      exact ih (hset.add hadd) hrest

/-- In which order files are added does not show. -/
theorem WellFormed.addAll_perm (hset : set.WellFormed) {files others : List Artifact}
    (hadded : set.addAll files = .ok result) (hperm : files.Perm others) :
    set.addAll others = .ok result := by
  obtain ⟨habsolute, hnodup, hnew⟩ := addable_of_addAll hadded
  obtain ⟨first, hfirst, hfiles, hunits⟩ := exists_addAll habsolute hnodup set hnew
  obtain rfl : first = result := Except.ok.inj (hfirst.symm.trans hadded)
  obtain ⟨other, hother, hfilesOther, hunitsOther⟩ := exists_addAll
    (fun file hmem => habsolute file (hperm.mem_iff.mpr hmem))
    ((hperm.map Artifact.path).nodup_iff.mp hnodup) set
    (fun file hmem => hnew file (hperm.mem_iff.mpr hmem))
  have hsame : other.files.Perm first.files :=
    hfilesOther.trans (((hperm.symm.map _).append_right _).trans hfiles.symm)
  -- Both hold the same entries in the order of their keys.
  have heq : other.files = first.files :=
    (hset.addAll hother).ordered.eq_of_perm (hset.addAll hadded).ordered hsame
  rw [hother]
  congr 1
  rw [ArtifactSet.mk.injEq]
  exact ⟨heq, hunitsOther.trans hunits.symm⟩

/-! ### What stands in a set -/

theorem WellFormed.keys_eq (hset : set.WellFormed) :
    Dictionary.keys set.files = set.fileList.map Artifact.path := by
  rw [fileList, Dictionary.values, Dictionary.keys, List.map_map]
  exact List.map_congr_left fun entry hmem => hset.keyed entry hmem

theorem WellFormed.keys_ordered (hset : set.WellFormed) :
    (Dictionary.keys set.files).Pairwise (· < ·) :=
  List.pairwise_map.mpr hset.ordered

/-- The files stand in the order of the bytes of their paths. -/
theorem WellFormed.paths_ordered (hset : set.WellFormed) :
    ((set.fileList.map Artifact.path).map Bytes.ofText).Pairwise (· < ·) := by
  rw [← hset.keys_eq]
  exact List.pairwise_map.mpr (hset.keys_ordered.imp fun hlt => Bytes.ofText_lt hlt)

/-- The paths that begin with a text are found where that text would stand. -/
theorem WellFormed.pathsUnder_eq (hset : set.WellFormed) (start : String) :
    set.pathsUnder start =
      (set.fileList.map Artifact.path).filter fun path => beginsWith path start := by
  rw [pathsUnder, takeWhile_dropWhile_beginsWith hset.keys_ordered, hset.keys_eq]

end ArtifactSet

open ArtifactSet

/-- However a set of artifacts was put together, its files are those that were accepted, each under
its own absolute path and in the order of the bytes of their paths, so that those whose paths begin
with some text are found together, and its units are those that were accepted, in their order and of
different names.  What is refused changes nothing, and files that can be added one after the other can
be added in any order. -/
theorem collected_in_order (additions : List Addition) :
    (empty.collect additions).WellFormed ∧
      (empty.collect additions).fileList.Perm
        ((empty.accepted additions).filterMap Addition.file?) ∧
      (empty.collect additions).units = (empty.accepted additions).filterMap Addition.unit? ∧
      (((empty.collect additions).fileList.map Artifact.path).map Bytes.ofText).Pairwise (· < ·) ∧
      (∀ addition error, (empty.collect additions).add addition = .error error →
        empty.collect (additions ++ [addition]) = empty.collect additions) ∧
      (∀ files others result, (empty.collect additions).addAll files = .ok result →
        files.Perm others → (empty.collect additions).addAll others = .ok result) ∧
      ∀ start, (empty.collect additions).pathsUnder start =
        ((empty.collect additions).fileList.map Artifact.path).filter
          fun path => beginsWith path start := by
  have hset := wellFormed_empty.collect additions
  obtain ⟨hfiles, hunits⟩ := contents_collect empty additions
  refine ⟨hset, by simpa [empty, fileList, Dictionary.values] using hfiles, hunits,
    hset.paths_ordered, ?_, ?_, ?_⟩
  · intro addition error herror
    rw [collect_append, collect, herror, collect]
  · intro files others result hadded hperm
    exact hset.addAll_perm hadded hperm
  · intro start
    exact hset.pathsUnder_eq start

/-- Two files out of order, one that is there already, a unit and another one of its name. -/
def Addition.sample : List Addition :=
  [.file "/etc/rsyslog.d/b" .readable (.plain "b"),
    .file "/etc/rsyslog.d/a" .secret (.secretKey "s" "ca"),
    .file "/etc/rsyslog.d/b" .readable (.plain "c"), .unit ⟨"x.service", true, ""⟩,
    .unit ⟨"x.service", false, ""⟩]

/-- A relative path is refused, and two more files may change places. -/
theorem sample_collected :
    (empty.collect Addition.sample).add (.file "etc" .readable (.plain "")) =
        .error (.relativePath "etc") ∧
      empty.collect (Addition.sample ++ [.file "etc" .readable (.plain "")]) =
        empty.collect Addition.sample ∧
      (empty.collect Addition.sample).addAll
          [⟨"/c", .readable, .plain ""⟩, ⟨"/d", .readable, .plain ""⟩] =
        (empty.collect Addition.sample).addAll
          [⟨"/d", .readable, .plain ""⟩, ⟨"/c", .readable, .plain ""⟩] ∧
      (empty.collect Addition.sample).pathsUnder "/etc/rsyslog.d/" =
        ["/etc/rsyslog.d/a", "/etc/rsyslog.d/b"] := by
  obtain ⟨-, -, -, -, hrefused, hperm, hunder⟩ := collected_in_order Addition.sample
  have hrelative : (empty.collect Addition.sample).add (.file "etc" .readable (.plain "")) =
      .error (.relativePath "etc") := rfl
  have hadds : ((empty.collect Addition.sample).addAll
      [⟨"/c", .readable, .plain ""⟩, ⟨"/d", .readable, .plain ""⟩]).isOk := by decide +kernel
  refine ⟨hrelative, hrefused _ _ hrelative, ?_, ?_⟩
  · cases hadded : (empty.collect Addition.sample).addAll
        [⟨"/c", .readable, .plain ""⟩, ⟨"/d", .readable, .plain ""⟩] with
    | error error =>
        rw [hadded] at hadds
        cases hadds
    | ok result => exact (hperm _ _ result hadded (List.Perm.swap _ _ [])).symm
  · rw [hunder]
    decide +kernel

end LogForwarding
