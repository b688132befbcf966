import LogForwarding.Proofs.Bytes
import LogForwarding.Proofs.Course
import LogForwarding.Proofs.Schema
import LogForwarding.Proofs.Synthesis

/-!
What the digest of an artifact set tells.  The bytes that are hashed carry no lengths, and every
text in them may hold the zeros that end it.  But the mode of a file ends in a byte that is in no
text, so the texts between two modes are known, and which files there are is known from the first
path and their number.
-/

namespace LogForwarding

open Actuator

namespace Dictionary

variable {β γ : Type}

theorem mapValues_insert (f : β → γ) (key : String) (value : β) (d : Dictionary β) :
    mapValues f (insert key value d) = insert key (f value) (mapValues f d) := by
  induction d with
  | nil => rfl
  | cons entry rest ih =>
      obtain ⟨name, found⟩ := entry
      simp only [insert, mapValues, List.map_cons] at ih ⊢
      split
      · rfl
      · split
        · rfl
        · rw [List.map_cons, ih]

theorem mapValues_ofList (f : β → γ) (pairs : List (String × β)) :
    mapValues f (ofList pairs) = ofList (pairs.map fun pair => (pair.1, f pair.2)) := by
  have hfold (d : Dictionary β) :
      mapValues f (pairs.foldl (fun d pair => d.insert pair.1 pair.2) d) =
        (pairs.map fun pair => (pair.1, f pair.2)).foldl (fun d pair => d.insert pair.1 pair.2)
          (mapValues f d) := by
    induction pairs generalizing d with
    | nil => rfl
    | cons pair rest ih =>
        rw [List.foldl_cons, ih, mapValues_insert, List.map_cons, List.foldl_cons]
  exact hfold []

/-- The keys of a dictionary depend on the keys of its pairs only. -/
theorem keys_ofList (pairs : List (String × β)) :
    keys (ofList pairs) = sortedSet (pairs.map (·.1)) := by
  rw [sortedSet, List.map_map]
  have hkeys := congrArg keys (mapValues_ofList (fun _ => ()) pairs)
  simpa [keys, mapValues, Function.comp_def] using hkeys

end Dictionary

/-- The last of the four bytes of a mode; it stands in no text. -/
def FileMode.mark (mode : FileMode) : UInt8 :=
  mode.bits.toUInt8

namespace FileMode

theorem ofWord_bits (mode : FileMode) :
    Bytes.ofWord mode.bits = Bytes.ofText "\x00\x00\x01" ++ [mode.mark] := by
  cases mode <;> decide +kernel

theorem le_mark (mode : FileMode) : 0x80 ≤ mode.mark := by
  cases mode <;> decide

theorem mark_inj {mode other : FileMode} (heq : mode.mark = other.mark) : mode = other := by
  revert heq
  cases mode <;> cases other <;> decide

end FileMode

def Encoding.letter : Encoding → String
  | .plain => "p"
  | .base64 => "b"

namespace ArtifactSource

/-- The text that stands for a source when a set is hashed. -/
def text : ArtifactSource → String
  | .inline encoding data => encoding.letter ++ data
  | .secretKey secretName key => "s" ++ (secretName ++ ("\x00" ++ key))

theorem digestInput_eq (source : ArtifactSource) :
    source.digestInput = Bytes.ofText source.text := by
  have hzero : Bytes.ofText "\x00" = [0] := by decide +kernel
  cases source with
  | inline encoding data =>
      have hletter : Bytes.ofText encoding.letter = [encoding.mark] := by
        cases encoding <;> decide +kernel
      rw [text, Bytes.ofText_append, hletter]
      rfl
  | secretKey secretName key =>
      have hletter : Bytes.ofText "s" = [0x73] := by decide +kernel
      simp only [text, Bytes.ofText_append, hletter, hzero]
      rfl

theorem beginsPlain_text (source : ArtifactSource) : Bytes.BeginsPlain source.text := by
  rw [Bytes.BeginsPlain, ← digestInput_eq]
  cases source with
  | inline encoding data => cases encoding <;> exact ⟨_, _, rfl, by decide⟩
  | secretKey secretName key => exact ⟨_, _, rfl, by decide⟩

/-- A source is known from its text, except for where a name ends and a key begins. -/
theorem text_inj {source other : ArtifactSource} (heq : source.text = other.text)
    (hkeys : ∀ secretName key otherName otherKey, source = .secretKey secretName key →
      other = .secretKey otherName otherKey → key = otherKey) : source = other := by
  -- The first letter tells the kind of the source.
  have hchars := congrArg String.toList heq
  rcases source with ⟨encoding, data⟩ | ⟨secretName, key⟩
  · rcases other with ⟨coding, content⟩ | ⟨otherName, otherKey⟩
    · cases encoding <;> cases coding <;>
        simp [text, Encoding.letter, String.toList_inj] at hchars ⊢ <;> exact hchars
    · cases encoding <;> simp [text, Encoding.letter] at hchars
  · rcases other with ⟨coding, content⟩ | ⟨otherName, otherKey⟩
    · cases coding <;> simp [text, Encoding.letter] at hchars
    · obtain rfl := hkeys _ _ _ _ rfl rfl
      simpa [text] using heq

end ArtifactSource

namespace Artifact

/-- The path of a file and what its mode begins with. -/
def opening (file : Artifact) : String :=
  file.path ++ "\x00\x00\x01"

/-- The text between the mode of a file and the path of the next one. -/
def body (file : Artifact) : String :=
  file.source.text ++ "\x00"

theorem digestInput_eq (file : Artifact) :
    file.digestInput =
      Bytes.ofText file.opening ++ file.permissions.mark :: Bytes.ofText file.body := by
  have hzero : Bytes.ofText "\x00" = [0] := by decide +kernel
  simp [digestInput, opening, body, FileMode.ofWord_bits, ArtifactSource.digestInput_eq, hzero]

/-- The text in front of the first mode, where `last` is what follows the files. -/
def firstText (last : String) : List Artifact → String
  | [] => last
  | file :: _ => file.opening

/-- The modes of files, each with the text up to the next one. -/
def sections (last : String) : List Artifact → List (UInt8 × String)
  | [] => []
  | file :: rest => (file.permissions.mark, file.body ++ firstText last rest) :: sections last rest

theorem flatMap_digestInput (last : String) (files : List Artifact) :
    files.flatMap digestInput ++ Bytes.ofText last =
      Bytes.ofText (firstText last files) ++ Bytes.marked (sections last files) := by
  induction files with
  | nil => simp [firstText, sections, Bytes.marked]
  | cons file rest ih =>
      rw [List.flatMap_cons, List.append_assoc, ih, digestInput_eq]
      simp [firstText, sections, Bytes.marked]

theorem parted_sections (last : String) (files : List Artifact) :
    Bytes.Parted (sections last files) := by
  induction files with
  | nil => simp [sections, Bytes.Parted]
  | cons file rest ih =>
      intro entry hmem
      rcases List.mem_cons.mp hmem with heq | hrest
      · rw [heq]
        refine ⟨file.permissions.le_mark, ?_⟩
        exact (file.source.beginsPlain_text.append _).append _
      · exact ih entry hrest

@[simp] theorem length_sections (last : String) (files : List Artifact) :
    (sections last files).length = files.length := by
  induction files with
  | nil => rfl
  | cons file rest ih => rw [sections, List.length_cons, ih, List.length_cons]

/-- As many files that begin with the same text have the same first path. -/
theorem head?_path_eq {last : String} {files others : List Artifact}
    (hfirst : firstText last files = firstText last others)
    (hlength : files.length = others.length) :
    (files.map path).head? = (others.map path).head? := by
  rcases files with - | ⟨file, rest⟩
  · rw [List.eq_nil_of_length_eq_zero hlength.symm]
  · rcases others with - | ⟨other, more⟩
    · cases hlength
    · have hpath : file.path = other.path := String.append_left_inj _ |>.mp hfirst
      simp [hpath]

theorem firstText_eq {last : String} {files others : List Artifact}
    (hpaths : files.map path = others.map path) :
    firstText last files = firstText last others := by
  rcases files with - | ⟨file, rest⟩
  · rw [List.map_eq_nil_iff.mp hpaths.symm]
  · rcases others with - | ⟨other, more⟩
    · cases hpaths
    · rw [firstText, opening, (List.cons.inj hpaths).1]
      rfl

/-- A file that is looked up in a Secret is one of the files for key material. -/
def Keyed (file : Artifact) : Prop :=
  ∀ secretName key, file.source = .secretKey secretName key → (key, file.path) ∈ Node.tlsFiles

theorem Keyed.key_eq {file other : Artifact} (hkeyed : file.Keyed) (hother : other.Keyed)
    (hpath : file.path = other.path) {secretName key otherName otherKey : String}
    (hsource : file.source = .secretKey secretName key)
    (hfound : other.source = .secretKey otherName otherKey) : key = otherKey := by
  have hunique : ∀ pair ∈ Node.tlsFiles, ∀ found ∈ Node.tlsFiles, pair.2 = found.2 →
      pair.1 = found.1 := by
    decide +kernel
  exact hunique _ (hkeyed _ _ hsource) _ (hother _ _ hfound) hpath

/-- Files at the same paths are known from their modes and the texts between them. -/
theorem eq_of_sections_eq {last : String} {files others : List Artifact}
    (hkeyed : ∀ file ∈ files, file.Keyed) (hothers : ∀ other ∈ others, other.Keyed)
    (hpaths : files.map path = others.map path)
    (hsections : sections last files = sections last others) : files = others := by
  induction files generalizing others with
  | nil => exact (List.map_eq_nil_iff.mp hpaths.symm).symm
  | cons file rest ih =>
      rcases others with - | ⟨other, more⟩
      · cases hpaths
      · obtain ⟨hpath, hrest⟩ := List.cons.inj hpaths
        obtain ⟨hsection, hlater⟩ := List.cons.inj hsections
        obtain ⟨hmark, htext⟩ := Prod.mk.inj hsection
        have hmode : file.permissions = other.permissions := FileMode.mark_inj hmark
        have hsource : file.source = other.source := by
          rw [firstText_eq hrest] at htext
          refine ArtifactSource.text_inj ?_ ?_
          · exact String.append_left_inj _ |>.mp (String.append_left_inj _ |>.mp htext)
          · intro secretName key otherName otherKey hfile hother
            exact (hkeyed file List.mem_cons_self).key_eq (hothers other List.mem_cons_self) hpath
              hfile hother
        have hfiles : rest = more := by
          refine ih ?_ ?_ hrest hlater
          · exact fun file hmem => hkeyed file (List.mem_cons_of_mem _ hmem)
          · exact fun other hmem => hothers other (List.mem_cons_of_mem _ hmem)
        obtain ⟨path, permissions, source⟩ := file
        rw [hfiles]
        congr 1
        exact Artifact.mk.injEq .. |>.mpr ⟨hpath, hmode, hsource⟩

end Artifact

/-- The text that stands for a unit when a set is hashed. -/
def UnitDef.text (unit : UnitDef) : String :=
  unit.name ++ ((if unit.enable then "\x01" else "\x00") ++ (unit.content ++ "\x00"))

theorem UnitDef.digestInput_eq (unit : UnitDef) :
    unit.digestInput = Bytes.ofText unit.text := by
  have hzero : Bytes.ofText "\x00" = [0] := by decide +kernel
  have hone : Bytes.ofText "\x01" = [1] := by decide +kernel
  cases henable : unit.enable <;> simp [digestInput, text, henable, hzero, hone]

namespace ArtifactSet

/-- The texts of the units of a set. -/
def unitsText (set : ArtifactSet) : String :=
  String.join (set.units.map UnitDef.text)

theorem digestInput_eq (set : ArtifactSet) :
    set.digestInput =
      Bytes.ofText (Artifact.firstText set.unitsText set.fileList) ++
        Bytes.marked (Artifact.sections set.unitsText set.fileList) := by
  have hunits : set.units.flatMap UnitDef.digestInput = Bytes.ofText set.unitsText := by
    rw [unitsText]
    induction set.units with
    | nil => simp
    | cons unit rest ih =>
        rw [List.flatMap_cons, ih, UnitDef.digestInput_eq, List.map_cons, String.join_cons,
          Bytes.ofText_append]
  rw [digestInput, hunits, Artifact.flatMap_digestInput]

/-- Whatever its texts are, a set's first path and the modes with what is between them are known
from the bytes that are hashed. -/
theorem sections_of_digestInput_eq {set found : ArtifactSet}
    (heq : set.digestInput = found.digestInput) :
    Artifact.firstText set.unitsText set.fileList =
        Artifact.firstText found.unitsText found.fileList ∧
      Artifact.sections set.unitsText set.fileList =
        Artifact.sections found.unitsText found.fileList := by
  rw [digestInput_eq, digestInput_eq] at heq
  have hset := Artifact.parted_sections set.unitsText set.fileList
  have hfound := Artifact.parted_sections found.unitsText found.fileList
  obtain ⟨hfirst, hmarked⟩ := hset.parts.append_inj hfound.parts heq
  exact ⟨hfirst, hset.marked_inj hfound hmarked⟩

/-- The set with more files. -/
def put (set : ArtifactSet) (files : List Artifact) : ArtifactSet :=
  ⟨(files.map fun file => (file.path, file)).foldl (fun d pair => d.insert pair.1 pair.2) set.files,
    set.units⟩

theorem put_append (set : ArtifactSet) (first rest : List Artifact) :
    set.put (first ++ rest) = (set.put first).put rest := by
  simp [put]

theorem eq_put_of_addFile {set result : ArtifactSet} {path : String} {permissions : FileMode}
    {source : ArtifactSource} (hadded : set.addFile path permissions source = .ok result) :
    result = set.put [⟨path, permissions, source⟩] := by
  rw [addFile] at hadded
  split at hadded
  · cases hadded
  · split at hadded
    · cases hadded
    · exact (Except.ok.inj hadded).symm

theorem eq_put_of_addAll {set result : ArtifactSet} {files : List Artifact}
    (hadded : set.addAll files = .ok result) : result = set.put files := by
  induction files generalizing set with
  | nil => exact (Except.ok.inj hadded).symm
  | cons file rest ih =>
      obtain ⟨middle, hfile, hrest⟩ := bind_eq_ok.mp hadded
      rw [ih hrest, eq_put_of_addFile hfile]
      rfl

/-- The audit rules that are staged have the names of the baseline, or the one of the tenant's
own. -/
theorem exists_staged_of_addAuditRules {set result : ArtifactSet} {config : TenantConfig}
    {ctx : ClusterContext} (hadded : set.addAuditRules config ctx = .ok result) :
    ∃ names ∈ [[], [Audit.overrideName], Audit.baseline.map (·.1)], ∃ files,
      files.map Artifact.path = names.map Audit.stagedPath ∧ (∀ file ∈ files, file.Keyed) ∧
        result = set.put files := by
  rw [addAuditRules] at hadded
  split at hadded
  · exact ⟨[], by simp, [], rfl, by simp, (Except.ok.inj hadded).symm⟩
  · split at hadded
    · obtain ⟨rules, -, hfile⟩ := bind_eq_ok.mp hadded
      refine ⟨[Audit.overrideName], by simp, [_], rfl, ?_, eq_put_of_addFile hfile⟩
      intro file hmem secretName key hsource
      rw [List.mem_singleton.mp hmem] at hsource
      cases hsource
    · rw [addPlainFiles_eq] at hadded
      refine ⟨Audit.baseline.map (·.1), by simp, _, ?_, ?_, eq_put_of_addAll hadded⟩
      · simp only [List.map_map]
        rfl
      · intro file hmem secretName key hsource
        obtain ⟨entry, -, heq⟩ := List.mem_map.mp hmem
        rw [← heq] at hsource
        cases hsource

/-- The files for key material are there as a whole or not at all. -/
theorem exists_keys_of_addTlsFiles {set result : ArtifactSet} {config : TenantConfig}
    {ctx : ClusterContext} (hadded : set.addTlsFiles config ctx = .ok result) :
    ∃ isSecured : Bool, ∃ files,
      files.map Artifact.path = (if isSecured then Node.tlsFiles.map (·.2) else []) ∧
        (∀ file ∈ files, file.Keyed) ∧ result = set.put files := by
  rw [addTlsFiles] at hadded
  split at hadded
  · exact ⟨false, [], rfl, by simp, (Except.ok.inj hadded).symm⟩
  · simp only at hadded
    split at hadded
    · cases hadded
    · rw [addSecretFiles_eq] at hadded
      refine ⟨true, _, ?_, ?_, eq_put_of_addAll hadded⟩
      · simp only [List.map_map]
        rfl
      · intro file hmem secretName key hsource
        obtain ⟨pair, hpair, heq⟩ := List.mem_map.mp hmem
        rw [← heq] at hsource ⊢
        cases hsource
        exact hpair

/-- A set holds files at known paths, and the one unit. -/
structure Laid (set : ArtifactSet) (names : List String) (isSecured : Bool) : Prop where
  names_mem : names ∈ [[], [Audit.overrideName], Audit.baseline.map (·.1)]
  files : ∃ required : List Artifact, required.map Artifact.path = requiredPaths names isSecured ∧
    (∀ file ∈ required, file.Keyed) ∧
      set.files = Dictionary.ofList (required.map fun file => (file.path, file))
  units : ∃ unit, Node.unit = .ok unit ∧ set.units = [unit]

end ArtifactSet

/-- Whatever a document holds, its artifacts are at paths of which there are only a few choices. -/
theorem exists_laid_of_synthesize {config : TenantConfig} {ctx : ClusterContext}
    {set : ArtifactSet} (hset : synthesize config ctx = .ok set) :
    ∃ names isSecured, set.Laid names isSecured := by
  obtain ⟨forwarder, -, hset⟩ := bind_eq_ok.mp hset
  obtain ⟨first, hfirst, hset⟩ := bind_eq_ok.mp hset
  obtain ⟨second, haudit, hset⟩ := bind_eq_ok.mp hset
  obtain ⟨third, htls, hset⟩ := bind_eq_ok.mp hset
  obtain ⟨apply, -, hset⟩ := bind_eq_ok.mp hset
  obtain ⟨fourth, hfourth, hset⟩ := bind_eq_ok.mp hset
  obtain ⟨fifth, hfifth, hset⟩ := bind_eq_ok.mp hset
  obtain ⟨sixth, hsixth, hset⟩ := bind_eq_ok.mp hset
  obtain ⟨unit, hunit, hset⟩ := bind_eq_ok.mp hset
  obtain ⟨names, hnames, rules, hrules, hinline, hsecond⟩ :=
    ArtifactSet.exists_staged_of_addAuditRules haudit
  obtain ⟨isSecured, keys, hkeys, hkeyed, hthird⟩ := ArtifactSet.exists_keys_of_addTlsFiles htls
  have hplain (path : String) (permissions : FileMode) (data : String) :
      Artifact.Keyed ⟨path, permissions, .plain data⟩ := by
    intro secretName key hsource
    cases hsource
  let required := [⟨Node.stagedConfig, .readable, .plain forwarder⟩] ++ rules ++ keys ++
    [⟨Node.applyProgram, .executable, .plain apply⟩,
     ⟨Node.statsProgramPath, .executable, .plain (Template.unlines Node.statsProgram)⟩,
     ⟨Node.memoryLimitsPath, .readable, .plain (Template.unlines Node.memoryLimits)⟩]
  have hsixth : sixth = ArtifactSet.empty.put required := by
    rw [ArtifactSet.eq_put_of_addFile hsixth, ArtifactSet.eq_put_of_addFile hfifth,
      ArtifactSet.eq_put_of_addFile hfourth, hthird, hsecond, ArtifactSet.eq_put_of_addFile hfirst]
    simp only [required, ← ArtifactSet.put_append, List.append_assoc, List.cons_append,
      List.nil_append]
  have hunits : set = ⟨sixth.files, [unit]⟩ := by
    rw [ArtifactSet.addUnit, hsixth] at hset
    rw [hsixth]
    exact (Except.ok.inj hset).symm
  refine ⟨names, isSecured, hnames, ⟨required, ?_, ?_, ?_⟩, unit, mapError_eq_ok.mp hunit, ?_⟩
  · simp only [required, List.map_append, hrules, hkeys]
    rfl
  · intro file hmem
    simp only [required, List.mem_append, List.mem_cons, List.not_mem_nil, or_false] at hmem
    rcases hmem with ((rfl | hrule) | hkey) | rfl | rfl | rfl
    · exact hplain _ _ _
    · exact hinline file hrule
    · exact hkeyed file hkey
    · exact hplain _ _ _
    · exact hplain _ _ _
    · exact hplain _ _ _
  · rw [hunits, hsixth]
    rfl
  · rw [hunits]

namespace ArtifactSet.Laid

variable {set found : ArtifactSet} {names others : List String} {isSecured isOther : Bool}

/-- Each file stands under its own path, and the ones for key material are known by it. -/
theorem entry_of_mem (hlaid : set.Laid names isSecured) {entry : String × Artifact}
    (hmem : entry ∈ set.files) : entry = (entry.2.path, entry.2) ∧ entry.2.Keyed := by
  obtain ⟨required, hpaths, hkeyed, hfiles⟩ := hlaid.files
  have hkeys : (required.map fun file => (file.path, file)).map (·.1) =
      requiredPaths names isSecured := by
    rw [← hpaths, List.map_map]
    rfl
  have hnodup : ((required.map fun file => (file.path, file)).map (·.1)).Nodup := by
    rw [hkeys]
    exact nodup_requiredPaths names hlaid.names_mem isSecured
  rw [hfiles, Dictionary.mem_ofList hnodup] at hmem
  obtain ⟨file, hfile, heq⟩ := List.mem_map.mp hmem
  rw [← heq]
  exact ⟨rfl, hkeyed file hfile⟩

theorem keyed_of_mem (hlaid : set.Laid names isSecured) {file : Artifact}
    (hmem : file ∈ set.fileList) : file.Keyed := by
  obtain ⟨entry, hentry, heq⟩ := List.mem_map.mp hmem
  rw [← heq]
  exact (hlaid.entry_of_mem hentry).2

theorem files_eq (hlaid : set.Laid names isSecured) :
    set.files = set.fileList.map fun file => (file.path, file) := by
  rw [fileList, Dictionary.values, List.map_map]
  refine (List.map_id set.files).symm.trans (List.map_congr_left ?_)
  intro entry hmem
  exact (hlaid.entry_of_mem hmem).1

/-- The paths of a set in their order. -/
theorem map_path_fileList (hlaid : set.Laid names isSecured) :
    set.fileList.map Artifact.path = Dictionary.sortedSet (requiredPaths names isSecured) := by
  obtain ⟨required, hpaths, -, hfiles⟩ := hlaid.files
  have hkeys : Dictionary.keys set.files = set.fileList.map Artifact.path := by
    rw [Dictionary.keys, hlaid.files_eq, List.map_map]
    rfl
  rw [← hkeys, hfiles, Dictionary.keys_ofList, ← hpaths, List.map_map]
  rfl

theorem units_eq (hlaid : set.Laid names isSecured) (hfound : found.Laid others isOther) :
    set.units = found.units := by
  obtain ⟨unit, hunit, hset⟩ := hlaid.units
  obtain ⟨other, hother, heq⟩ := hfound.units
  rw [hset, heq, Except.ok.inj (hunit.symm.trans hother)]

end ArtifactSet.Laid

/-- The first path tells whether there is key material, and then the number of files which rules are
staged. -/
theorem sortedPaths_eq : ∀ names ∈ [[], [Audit.overrideName], Audit.baseline.map (·.1)],
    ∀ others ∈ [[], [Audit.overrideName], Audit.baseline.map (·.1)], ∀ isSecured isOther,
      (Dictionary.sortedSet (requiredPaths names isSecured)).head? =
          (Dictionary.sortedSet (requiredPaths others isOther)).head? →
        (Dictionary.sortedSet (requiredPaths names isSecured)).length =
            (Dictionary.sortedSet (requiredPaths others isOther)).length →
          requiredPaths names isSecured = requiredPaths others isOther := by
  decide +kernel

/-- Sets that are hashed alike are the same. -/
theorem ArtifactSet.Laid.eq_of_digestInput_eq {set found : ArtifactSet} {names others : List String}
    {isSecured isOther : Bool} (hlaid : set.Laid names isSecured)
    (hfound : found.Laid others isOther) (heq : set.digestInput = found.digestInput) :
    set = found := by
  have hunits := hlaid.units_eq hfound
  have htext : set.unitsText = found.unitsText := by rw [unitsText, hunits, unitsText]
  obtain ⟨hfirst, hsections⟩ := sections_of_digestInput_eq heq
  rw [htext] at hfirst hsections
  have hlength : set.fileList.length = found.fileList.length := by
    rw [← Artifact.length_sections found.unitsText, hsections, Artifact.length_sections]
  have hpaths : set.fileList.map Artifact.path = found.fileList.map Artifact.path := by
    have hhead := Artifact.head?_path_eq hfirst hlength
    rw [← List.length_map Artifact.path, ← List.length_map Artifact.path] at hlength
    rw [hlaid.map_path_fileList, hfound.map_path_fileList] at hhead hlength ⊢
    rw [sortedPaths_eq names hlaid.names_mem others hfound.names_mem isSecured isOther hhead
      hlength]
  have hfiles : set.fileList = found.fileList :=
    Artifact.eq_of_sections_eq (fun _ hmem => hlaid.keyed_of_mem hmem)
      (fun _ hmem => hfound.keyed_of_mem hmem) hpaths hsections
  have hentries : set.files = found.files := by
    rw [hlaid.files_eq, hfiles, ← hfound.files_eq]
  obtain ⟨files, units⟩ := set
  rw [ArtifactSet.mk.injEq]
  exact ⟨hentries, hunits⟩

/-- Different bytes with one digest. -/
def Sha256.Collide (message other : Bytes) : Prop :=
  message ≠ other ∧ digest message = digest other

namespace Actuator

/-- The call that brings a set to the nodes. -/
def publication (ns : String) (set : ArtifactSet) : Exchange Call.Answer :=
  ⟨.channel ns configurationBundle (.publish (.ofArtifacts set)), .ok ()⟩

/-- A delivery publishes its set unless the status vouches for it. -/
theorem publication_mem_deliveryCourse (settings : Settings) (ns : String) (config : TenantConfig)
    (set : ArtifactSet) (status : RecordStatus) :
    publication ns set ∈ (deliveryCourse settings ns false config set).calls ns status ↔
      ¬ Vouches status set := by
  have hne := configurationBundle_ne_cleanerBundle
  by_cases hvouches : Vouches status set <;> cases hmonitoring : settings.monitoring.enabled <;>
    cases hpresent : status.cleanupPresent <;>
      simp [deliveryCourse, cleanupCourse, publishCourse, observeCourse, Course.calls, Move.calls,
        Move.noted, publication, hvouches, hmonitoring, hpresent, hne]

theorem publication_mem_iff_of_enable {settings : Settings} {record : TenantRecord} {ns : String}
    {config : TenantConfig} {set : ArtifactSet} {before after : RecordStatus}
    {reads rest : List (Exchange Call.Answer)}
    (hprepared : Act.Held (prepare record ns) before reads (.ok (config, set)) before)
    (hheld : Act.Held (enable settings record ns false) before (reads ++ rest) (.ok ()) after) :
    publication ns set ∈ rest ↔ ¬ Vouches before set := by
  rw [enable_eq] at hheld
  obtain ⟨first, others, middle, status, hcalls, hfirst, hcourse⟩ := Act.held_bind_ok.mp hheld
  obtain ⟨hreads, hmiddle⟩ := Dialogue.Held.unique hprepared hfirst hcalls
  obtain ⟨hmiddle, hstatus⟩ := Prod.mk.inj hmiddle
  rw [← Except.ok.inj hmiddle, ← hstatus] at hcourse
  rw [hreads, List.append_cancel_left_eq] at hcalls
  rw [hcalls, (Course.held_act_ok hcourse).1]
  exact publication_mem_deliveryCourse settings ns config set before

end Actuator

/-- Sets that were made of documents are hashed alike only if they are the same.  So, unless two
digests collide, what is left unpublished is just what the status tells of already. -/
theorem digest_tells_apart {config other : TenantConfig} {ctx context : ClusterContext}
    {set found : ArtifactSet} (hset : synthesize config ctx = .ok set)
    (hfound : synthesize other context = .ok found) :
    (set.digestInput = found.digestInput → set = found) ∧
      (¬ Sha256.Collide set.digestInput found.digestInput →
        (set.digest = found.digest ↔ set = found) ∧
          ∀ settings record ns known reads rest before after,
            before.phase = some .enabled → before.appliedDigest = some found.digest →
            Act.Held (prepare record ns) before reads (.ok (known, set)) before →
            Act.Held (enable settings record ns false) before (reads ++ rest) (.ok ()) after →
            (publication ns set ∈ rest ↔ set ≠ found)) := by
  obtain ⟨names, isSecured, hlaid⟩ := exists_laid_of_synthesize hset
  obtain ⟨others, isOther, hother⟩ := exists_laid_of_synthesize hfound
  have hinput : set.digestInput = found.digestInput → set = found :=
    hlaid.eq_of_digestInput_eq hother
  refine ⟨hinput, fun hdiffer => ?_⟩
  have hdigest : set.digest = found.digest ↔ set = found := by
    constructor
    · intro heq
      apply hinput
      by_contra hne
      exact hdiffer ⟨hne, Bytes.toHex_inj heq⟩
    · exact congrArg ArtifactSet.digest
  refine ⟨hdigest, ?_⟩
  intro settings record ns known reads rest before after hphase happlied hprepared hheld
  have hvouches : Vouches before set ↔ set = found := by
    rw [Vouches, happlied, Option.some.injEq, eq_comm, eq_comm (a := found.digest), hdigest]
    exact ⟨And.right, fun heq => ⟨hphase.symm, heq⟩⟩
  rw [publication_mem_iff_of_enable hprepared hheld, hvouches]

section Sample

/-- A document that asks for a secured connection, and says nothing else. -/
def TenantConfig.sampleSecured : TenantConfig :=
  ⟨"", 0, [], some ⟨true, some "relp-tls", [], none, none⟩, none, none, none, none, none⟩

/-- A cluster in which the reference leads to a Secret of some name. -/
def ClusterContext.sampleNamed (secretName : String) : ClusterContext :=
  ⟨"", "", "", "", [⟨"relp-tls", ⟨"Secret", secretName⟩⟩], [], false⟩

theorem exists_of_isOk {ε α : Type} {result : Except ε α} (hok : result.isOk = true) :
    ∃ value, result = .ok value := by
  cases result with
  | ok value => exact ⟨value, rfl⟩
  | error error => cases hok

/-- A name that holds a zero is not taken for a shorter one with a longer key. -/
theorem sample_tells_apart :
    ∃ set found, synthesize .sampleSecured (.sampleNamed "relp") = .ok set ∧
      synthesize .sampleSecured (.sampleNamed "relp\x00ca") = .ok found ∧ set ≠ found ∧
        set.digestInput ≠ found.digestInput ∧
          (¬ Sha256.Collide set.digestInput found.digestInput → set.digest ≠ found.digest) := by
  have hmade : (synthesize .sampleSecured (.sampleNamed "relp")).isOk ∧
      (synthesize .sampleSecured (.sampleNamed "relp\x00ca")).isOk ∧
      (synthesize .sampleSecured (.sampleNamed "relp")).toOption ≠
        (synthesize .sampleSecured (.sampleNamed "relp\x00ca")).toOption := by
    decide +kernel
  obtain ⟨hfirst, hsecond, hdiffer⟩ := hmade
  obtain ⟨set, hset⟩ := exists_of_isOk hfirst
  obtain ⟨found, hfound⟩ := exists_of_isOk hsecond
  have hne : set ≠ found := by
    intro heq
    rw [hset, hfound, heq] at hdiffer
    exact hdiffer rfl
  obtain ⟨hinput, hdigest⟩ := digest_tells_apart hset hfound
  exact ⟨set, found, hset, hfound, hne, fun heq => hne (hinput heq),
    fun hcollide heq => hne ((hdigest hcollide).1.mp heq)⟩

end Sample

end LogForwarding
