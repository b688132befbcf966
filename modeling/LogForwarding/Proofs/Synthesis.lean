import LogForwarding.Monitoring.Object
import LogForwarding.Proofs.Dictionary
import LogForwarding.Proofs.Resolution
import LogForwarding.Proofs.Template

/-!
A document without faults always has artifacts, and they are just the ones that it asks for.
-/

namespace LogForwarding

open Actuator

namespace Template

theorem unlines_append (first rest : List String) :
    unlines (first ++ rest) = unlines first ++ unlines rest := by
  simp [unlines, String.join_append]

theorem unlines_cons (line : String) (rest : List String) :
    unlines (line :: rest) = line ++ "\n" ++ unlines rest := by
  simp [unlines, String.join_cons]

end Template

namespace Node

/-- The line that says whether audit rules are installed. -/
def auditFlag (auditEnabled : Bool) : String :=
  if auditEnabled then "AUDIT_ENABLED=\"true\"" else "AUDIT_ENABLED=\"false\""

/-- The lines of the program that installs the configuration. -/
def applyLines (auditEnabled : Bool) : List String :=
  applyHead ++ auditFlag auditEnabled :: applyBody

theorem auditFlag_eq (auditEnabled : Bool) :
    auditFlag auditEnabled =
      "AUDIT_ENABLED=\"" ++ Template.written (.bool auditEnabled) ++ "\"" := by
  cases auditEnabled <;> decide +kernel

theorem applyText_eq (auditEnabled : Bool) :
    applyText auditEnabled = .ok (Template.unlines (applyLines auditEnabled)) := by
  have hflag : Template.memberOf (Json.object [("audit_enabled", .bool auditEnabled)])
      "audit_enabled" = .bool auditEnabled := rfl
  have hfill : applyText auditEnabled = .ok
      ((Template.unlines applyHead ++ "AUDIT_ENABLED=\"") ++
        (Template.written (.bool auditEnabled) ++
          (("\"" ++ "\n" ++ Template.unlines applyBody) ++ ""))) := by
    rw [← hflag]
    rfl
  rw [hfill, applyLines, Template.unlines_append, Template.unlines_cons, auditFlag_eq]
  simp only [String.append_assoc, String.append_empty]

theorem exists_unit : ∃ content, unit = .ok ⟨unitName, true, content⟩ := by
  obtain ⟨content, hcontent⟩ :=
    Template.exists_fill unitTemplate [("apply_script", .str applyProgram)]
  refine ⟨content, ?_⟩
  rw [unit, hcontent]
  rfl

end Node

namespace ArtifactSet

/-- Adds files one after the other. -/
def addAll (set : ArtifactSet) : List Artifact → Except SynthesisError ArtifactSet
  | [] => .ok set
  | file :: rest => do
      let set ← set.addFile file.path file.permissions file.source
      set.addAll rest

theorem addAll_append (set : ArtifactSet) (first rest : List Artifact) :
    set.addAll (first ++ rest) = (set.addAll first >>= fun set => set.addAll rest) := by
  induction first generalizing set with
  | nil => rfl
  | cons file first ih =>
      rw [List.cons_append, addAll, addAll]
      cases set.addFile file.path file.permissions file.source with
      | error error => rfl
      | ok more => exact ih more

theorem addPlainFiles_eq (set : ArtifactSet) (contents : List (String × String)) :
    set.addPlainFiles contents =
      set.addAll (contents.map fun (path, content) => ⟨path, .readable, .plain content⟩) := by
  induction contents generalizing set with
  | nil => rfl
  | cons entry rest ih =>
      obtain ⟨path, content⟩ := entry
      rw [addPlainFiles, List.map_cons, addAll]
      cases set.addFile path .readable (.plain content) with
      | error error => rfl
      | ok more => exact ih more

theorem addSecretFiles_eq (set : ArtifactSet) (secretName : String)
    (files : List (String × String)) :
    set.addSecretFiles secretName files =
      set.addAll (files.map fun (key, path) => ⟨path, .secret, .secretKey secretName key⟩) := by
  induction files generalizing set with
  | nil => rfl
  | cons entry rest ih =>
      obtain ⟨key, path⟩ := entry
      rw [addSecretFiles, List.map_cons, addAll]
      cases set.addFile path .secret (.secretKey secretName key) with
      | error error => rfl
      | ok more => exact ih more

theorem addFile_ok {set : ArtifactSet} {file : Artifact} (habsolute : beginsWith file.path "/")
    (hfresh : file.path ∉ Dictionary.keys set.files) :
    set.addFile file.path file.permissions file.source =
      .ok ⟨Dictionary.insert file.path file set.files, set.units⟩ := by
  have hcontains : ¬ Dictionary.contains set.files file.path := by
    simpa [Dictionary.contains, Dictionary.keys] using hfresh
  rw [addFile, if_neg (Decidable.not_not.mpr habsolute), if_neg hcontains]

/-- Files with new paths can always be added, and nothing but them is added. -/
theorem exists_addAll {files : List Artifact} (habsolute : ∀ file ∈ files, beginsWith file.path "/")
    (hnodup : (files.map Artifact.path).Nodup) (set : ArtifactSet)
    (hfresh : ∀ file ∈ files, file.path ∉ Dictionary.keys set.files) :
    ∃ result, set.addAll files = .ok result ∧
      result.files.Perm ((files.map fun file => (file.path, file)) ++ set.files) ∧
        result.units = set.units := by
  induction files generalizing set with
  | nil => exact ⟨set, rfl, List.Perm.refl _, rfl⟩
  | cons file rest ih =>
      obtain ⟨hother, hrest⟩ := List.nodup_cons.mp hnodup
      have hperm := Dictionary.insert_perm (hfresh file List.mem_cons_self) file
      -- The paths that come later are still new, for they differ from this one.
      have hlater : ∀ later ∈ rest,
          later.path ∉ Dictionary.keys (Dictionary.insert file.path file set.files) := by
        intro later hmem hkey
        have hkeys : later.path ∈ file.path :: Dictionary.keys set.files :=
          (hperm.map Prod.fst).mem_iff.mp hkey
        rcases List.mem_cons.mp hkeys with heq | hold
        · exact hother (heq ▸ List.mem_map_of_mem hmem)
        · exact hfresh later (List.mem_cons_of_mem file hmem) hold
      obtain ⟨result, hresult, hfiles, hunits⟩ :=
        ih (fun later hmem => habsolute later (List.mem_cons_of_mem file hmem)) hrest
          ⟨Dictionary.insert file.path file set.files, set.units⟩ hlater
      refine ⟨result, ?_, ?_, hunits⟩
      · rw [addAll, addFile_ok (habsolute file List.mem_cons_self)
          (hfresh file List.mem_cons_self)]
        exact hresult
      · exact hfiles.trans ((hperm.append_left _).trans List.perm_middle)

end ArtifactSet

section Required

variable (config : TenantConfig) (forwarder rules secretName : String)

/-- The staged audit rules of a document: the tenant's own rules, or else the baseline. -/
def stagedRules : List Artifact :=
  if config.auditEnabled then
    match auditReference? config with
    | some _ =>
        [⟨Audit.stagedPath Audit.overrideName, .readable, .base64 (Bytes.ofText rules)⟩]
    | none =>
        Audit.baseline.map fun (name, text) => ⟨Audit.stagedPath name, .readable, .plain text⟩
  else []

/-- The files for the keys of a Secret. -/
def keyMaterial : List Artifact :=
  if config.enabledTls.isSome then
    Node.tlsFiles.map fun (key, path) => ⟨path, .secret, .secretKey secretName key⟩
  else []

/-- The programs and limits that every tenant needs. -/
def programFiles : List Artifact :=
  [⟨Node.applyProgram, .executable, .plain (Template.unlines (Node.applyLines config.auditEnabled))⟩,
   ⟨Node.statsProgramPath, .executable, .plain (Template.unlines Node.statsProgram)⟩,
   ⟨Node.memoryLimitsPath, .readable, .plain (Template.unlines Node.memoryLimits)⟩]

/-- The files that a document asks for. -/
def requiredFiles : List Artifact :=
  [⟨Node.stagedConfig, .readable, .plain forwarder⟩] ++ stagedRules config rules ++
    keyMaterial config secretName ++ programFiles config

/-- The names of the staged rule files. -/
def stagedNames : List String :=
  if config.auditEnabled then
    if (auditReference? config).isSome then [Audit.overrideName] else Audit.baseline.map (·.1)
  else []

/-- The paths of the files, by the names of the staged rules and whether there is key material. -/
def requiredPaths (names : List String) (isSecured : Bool) : List String :=
  [Node.stagedConfig] ++ names.map Audit.stagedPath ++
    (if isSecured then Node.tlsFiles.map (·.2) else []) ++
    [Node.applyProgram, Node.statsProgramPath, Node.memoryLimitsPath]

theorem map_path_requiredFiles :
    (requiredFiles config forwarder rules secretName).map Artifact.path =
      requiredPaths (stagedNames config) config.enabledTls.isSome := by
  cases haudit : config.auditEnabled <;> cases hreference : auditReference? config <;>
    cases htls : config.enabledTls <;>
      simp [requiredFiles, programFiles, stagedRules, keyMaterial, requiredPaths, stagedNames,
        haudit, hreference, htls, Audit.baseline, Node.tlsFiles]

theorem stagedNames_mem :
    stagedNames config ∈ [[], [Audit.overrideName], Audit.baseline.map (·.1)] := by
  rw [stagedNames]
  split
  · split <;> simp
  · simp

end Required

theorem nodup_requiredPaths : ∀ names ∈ [[], [Audit.overrideName], Audit.baseline.map (·.1)],
    ∀ isSecured, (requiredPaths names isSecured).Nodup := by
  decide +kernel

theorem absolute_requiredPaths : ∀ names ∈ [[], [Audit.overrideName], Audit.baseline.map (·.1)],
    ∀ isSecured, ∀ path ∈ requiredPaths names isSecured, beginsWith path "/" := by
  decide +kernel

/-- The files of a document never stand in each other's way. -/
theorem exists_filled (config : TenantConfig) (forwarder rules secretName : String) :
    ∃ filled, ArtifactSet.empty.addAll (requiredFiles config forwarder rules secretName) =
        .ok filled ∧
      filled.fileList.Perm (requiredFiles config forwarder rules secretName) ∧
        filled.units = [] := by
  have hpaths := map_path_requiredFiles config forwarder rules secretName
  have hnames := stagedNames_mem config
  have hnodup :
      ((requiredFiles config forwarder rules secretName).map Artifact.path).Nodup := by
    rw [hpaths]
    exact nodup_requiredPaths _ hnames _
  have habsolute : ∀ file ∈ requiredFiles config forwarder rules secretName,
      beginsWith file.path "/" := by
    intro file hmem
    have hpath : file.path ∈ requiredPaths (stagedNames config) config.enabledTls.isSome := by
      rw [← hpaths]
      exact List.mem_map_of_mem hmem
    exact absolute_requiredPaths _ hnames _ file.path hpath
  obtain ⟨filled, hfilled, hfiles, hunits⟩ :=
    ArtifactSet.exists_addAll habsolute hnodup ArtifactSet.empty fun _ _ => List.not_mem_nil
  have hvalues : (filled.files.map Prod.snd).Perm
      (requiredFiles config forwarder rules secretName) := by
    simpa [ArtifactSet.empty, Function.comp_def] using hfiles.map Prod.snd
  exact ⟨filled, hfilled, hvalues, hunits⟩

section Valid

variable {config : TenantConfig} {ctx : ClusterContext}

/-- The rules of the ConfigMap that a document refers to, or else the baseline, are staged.  Where
nothing is said about audit rules this would fail, so the document has to be completed first. -/
theorem addAuditRules_eq {rules : String} (hset : config.auditConfig.isSome)
    (hrules : ∀ reference, auditReference? config = some reference →
      Audit.tenantRules reference ctx = .ok rules) (set : ArtifactSet) :
    set.addAuditRules config ctx = set.addAll (stagedRules config rules) := by
  obtain ⟨audit, haudit⟩ := Option.isSome_iff_exists.mp hset
  by_cases henabled : audit.enabled
  · have hsome : config.enabledAudit = some audit := by
      simp [TenantConfig.enabledAudit, haudit, henabled]
    have hall : config.auditEnabled := by simp [TenantConfig.auditEnabled, haudit, henabled]
    have hreference : auditReference? config = audit.configMapReferenceName := by
      simp [auditReference?, hsome]
    cases hname : audit.configMapReferenceName with
    | none =>
        simp only [ArtifactSet.addAuditRules, hsome, hname, stagedRules, hall, hreference,
          ArtifactSet.addPlainFiles_eq, List.map_map, if_true]
        rfl
    | some reference =>
        have hfound := hrules reference (hreference.trans hname)
        simp only [ArtifactSet.addAuditRules, hsome, hname, stagedRules, hall, hreference, hfound,
          if_true, ArtifactSet.addAll]
        exact (bind_pure _).symm
  · have hnone : config.enabledAudit = none := by
      simp [TenantConfig.enabledAudit, haudit, henabled]
    have hall : config.auditEnabled = false := by
      simp [TenantConfig.auditEnabled, haudit, henabled]
    simp [ArtifactSet.addAuditRules, hnone, stagedRules, hall, ArtifactSet.addAll]

/-- The rules that are staged are there. -/
theorem exists_addAuditRules (hset : config.auditConfig.isSome)
    (hvalid : config.validate ctx = []) :
    ∃ rules, (∀ reference, auditReference? config = some reference →
        Audit.tenantRules reference ctx = .ok rules) ∧
      ∀ set : ArtifactSet,
        set.addAuditRules config ctx = set.addAll (stagedRules config rules) := by
  obtain ⟨rules, hrules⟩ : ∃ rules, ∀ reference, auditReference? config = some reference →
      Audit.tenantRules reference ctx = .ok rules := by
    cases hreference : auditReference? config with
    | none => exact ⟨"", by simp⟩
    | some reference =>
        obtain ⟨audit, hsome, hname⟩ := Option.bind_eq_some_iff.mp hreference
        obtain ⟨configMap, found, hconfigMap, hholds⟩ :=
          exists_rules_of_validate hvalid hsome hname
        refine ⟨found.auditRules, ?_⟩
        rintro other ⟨⟩
        exact Audit.tenantRules_of_holdsRules hconfigMap hholds
  exact ⟨rules, hrules, addAuditRules_eq hset hrules⟩

/-- The keys of the Secret that a document refers to are looked up on the node. -/
theorem addTlsFiles_eq {secretName : String}
    (hnamed : ∀ tls, config.enabledTls = some tls →
      ctx.objectName? (tls.secretReferenceName.getD "") = some secretName) (set : ArtifactSet) :
    set.addTlsFiles config ctx = set.addAll (keyMaterial config secretName) := by
  cases htls : config.enabledTls with
  | none => simp [ArtifactSet.addTlsFiles, keyMaterial, htls, ArtifactSet.addAll]
  | some tls =>
      simp only [ArtifactSet.addTlsFiles, htls, hnamed tls htls, keyMaterial, Option.isSome_some,
        if_true]
      exact set.addSecretFiles_eq secretName Node.tlsFiles

theorem exists_addTlsFiles (hvalid : config.validate ctx = []) :
    ∃ secretName, (config.enabledTls.isSome → ∃ reference named secret,
        ctx.reference? reference = some named ∧ named.target.name = secretName ∧
          ctx.secret? reference = some secret ∧ secret.Usable) ∧
      ∀ set : ArtifactSet, set.addTlsFiles config ctx =
        set.addAll (keyMaterial config secretName) := by
  cases htls : config.enabledTls with
  | none => exact ⟨"", by simp, addTlsFiles_eq (by simp [htls])⟩
  | some tls =>
      obtain ⟨reference, named, secret, hname, hnamed, hsecret, husable⟩ :=
        exists_secret_of_validate hvalid htls
      refine ⟨named.target.name, fun _ => ⟨reference, named, secret, hnamed, rfl, hsecret, husable⟩,
        addTlsFiles_eq ?_⟩
      intro other hother
      cases htls.symm.trans hother
      simp [ClusterContext.objectName?, hname, hnamed]

/-- To make artifacts is to add the files that the document asks for, and then the unit. -/
theorem synthesize_eq {forwarder rules secretName : String} {unit : UnitDef}
    (hforwarder : Forwarder.configuration config ctx = .ok forwarder)
    (haudit : ∀ set : ArtifactSet,
      set.addAuditRules config ctx = set.addAll (stagedRules config rules))
    (htls : ∀ set : ArtifactSet,
      set.addTlsFiles config ctx = set.addAll (keyMaterial config secretName))
    (hunit : Node.unit = .ok unit) :
    synthesize config ctx =
      (ArtifactSet.empty.addAll (requiredFiles config forwarder rules secretName) >>= fun set =>
        set.addUnit unit) := by
  simp only [synthesize, hforwarder, haudit, htls, Node.applyText_eq, hunit, requiredFiles,
    programFiles, ArtifactSet.addAll_append, ArtifactSet.addAll, bind_assoc]
  rfl

end Valid

section Members

variable {config : TenantConfig} {forwarder rules secretName : String} {file : Artifact}

theorem readable_of_mem_stagedRules (hmem : file ∈ stagedRules config rules) :
    config.auditEnabled ∧ file.permissions = .readable ∧
      ∃ encoding data, file.source = .inline encoding data := by
  rw [stagedRules] at hmem
  split at hmem
  · rename_i haudit
    split at hmem
    · cases List.mem_singleton.mp hmem
      exact ⟨haudit, rfl, _, _, rfl⟩
    · obtain ⟨⟨name, text⟩, -, rfl⟩ := List.mem_map.mp hmem
      exact ⟨haudit, rfl, _, _, rfl⟩
  · cases hmem

theorem key_of_mem_keyMaterial (hmem : file ∈ keyMaterial config secretName) :
    config.enabledTls.isSome ∧ file.path ∈ Node.tlsFiles.map (·.2) ∧
      ∃ key ∈ tlsSecretKeys, file.source = .secretKey secretName key := by
  rw [keyMaterial] at hmem
  split at hmem
  · rename_i htls
    obtain ⟨⟨key, path⟩, hpair, rfl⟩ := List.mem_map.mp hmem
    have hkey : ∀ pair ∈ Node.tlsFiles, pair.1 ∈ tlsSecretKeys := by decide
    exact ⟨htls, List.mem_map_of_mem hpair, key, hkey (key, path) hpair, rfl⟩
  · cases hmem

/-- What is private or looked up later is key material. -/
theorem mem_keyMaterial_of_hidden (hmem : file ∈ requiredFiles config forwarder rules secretName)
    (hhidden : file.permissions = .secret ∨ ∃ name key, file.source = .secretKey name key) :
    file ∈ keyMaterial config secretName := by
  rw [requiredFiles, List.mem_append, List.mem_append, List.mem_append] at hmem
  rcases hmem with ((hconfig | hstaged) | hkeys) | hprogram
  · cases List.mem_singleton.mp hconfig
    simp [ArtifactSource.plain] at hhidden
  · obtain ⟨-, hpermissions, encoding, data, hsource⟩ := readable_of_mem_stagedRules hstaged
    simp [hpermissions, hsource] at hhidden
  · exact hkeys
  · simp only [programFiles, List.mem_cons, List.not_mem_nil, or_false] at hprogram
    rcases hprogram with rfl | rfl | rfl <;> simp [ArtifactSource.plain] at hhidden

theorem audit_of_staged (hmem : file ∈ requiredFiles config forwarder rules secretName)
    (hstaged : beginsWith file.path Node.stagedAuditRules) : config.auditEnabled := by
  refine Decidable.byContradiction fun hdisabled => ?_
  have hnone : stagedNames config = [] := if_neg hdisabled
  have hpath : file.path ∈ requiredPaths [] config.enabledTls.isSome := by
    rw [← hnone, ← map_path_requiredFiles config forwarder rules secretName]
    exact List.mem_map_of_mem hmem
  have hother : ∀ isSecured, ∀ path ∈ requiredPaths [] isSecured,
      ¬ beginsWith path Node.stagedAuditRules := by
    decide +kernel
  exact hother _ file.path hpath hstaged

theorem exists_staged_of_audit (haudit : config.auditEnabled) :
    ∃ file ∈ requiredFiles config forwarder rules secretName,
      beginsWith file.path Node.stagedAuditRules := by
  have hnames : stagedNames config ≠ [] := by
    rw [stagedNames, if_pos haudit]
    split <;> simp [Audit.baseline]
  obtain ⟨name, rest, hname⟩ := List.exists_cons_of_ne_nil hnames
  have hpath : Audit.stagedPath name ∈
      (requiredFiles config forwarder rules secretName).map Artifact.path := by
    rw [map_path_requiredFiles, requiredPaths, hname]
    simp
  obtain ⟨file, hmem, heq⟩ := List.mem_map.mp hpath
  refine ⟨file, hmem, ?_⟩
  rw [heq, beginsWith, List.isPrefixOf_iff_prefix, Audit.stagedPath, String.append_assoc,
    String.toList_append]
  exact List.prefix_append _ _

end Members

theorem Node.auditFlag_mem_applyLines (claimed auditEnabled : Bool) :
    Node.auditFlag claimed ∈ Node.applyLines auditEnabled ↔ claimed = auditEnabled := by
  revert claimed auditEnabled
  decide +kernel

theorem Monitoring.auditAlert_mem_alertRules (audit : Bool) :
    auditAlert ∈ alertRules audit ↔ audit := by
  revert audit
  decide +kernel

namespace ArtifactSet

/-- The set holds the files that a document asks for, and one unit that is started. -/
structure Renders (set : ArtifactSet) (config : TenantConfig) (ctx : ClusterContext) : Prop where
  files : ∃ forwarder rules secretName,
    Forwarder.configuration config ctx = .ok forwarder ∧
      (∀ reference, auditReference? config = some reference →
        Audit.tenantRules reference ctx = .ok rules) ∧
      set.fileList.Perm (requiredFiles config forwarder rules secretName)
  unit : ∃ content, Node.unit = .ok ⟨Node.unitName, true, content⟩ ∧
    set.units = [⟨Node.unitName, true, content⟩]

/-- Every key of a Secret that a file asks for was found in an immutable Secret of that name. -/
def KeysRead (set : ArtifactSet) (ns : String) (calls : List (Exchange Call.Answer)) : Prop :=
  ∀ file ∈ set.fileList, ∀ secretName key, file.source = .secretKey secretName key →
    ∃ secret, ⟨.secret ns secretName, .ok (some secret)⟩ ∈ calls ∧ secret.name = secretName ∧
      secret.immutable ∧ key ∈ secret.keys

/-- Only key material is private, and only key material is looked up on the node. -/
def HidesKeysOnly (set : ArtifactSet) : Prop :=
  ∀ file ∈ set.fileList,
    (file.permissions = .secret ∨ ∃ secretName key, file.source = .secretKey secretName key) →
      file.path ∈ Node.tlsFiles.map (·.2)

/-- The program, the staged rules and the alerts agree on whether audit rules are installed. -/
structure AgreesOnAudit (set : ArtifactSet) (auditEnabled : Bool) : Prop where
  program : ∃ lines, ⟨Node.applyProgram, .executable, .plain (Template.unlines lines)⟩ ∈
    set.fileList ∧ ∀ claimed, Node.auditFlag claimed ∈ lines ↔ claimed = auditEnabled
  rules : (∃ file ∈ set.fileList, beginsWith file.path Node.stagedAuditRules) ↔ auditEnabled
  alert : Monitoring.auditAlert ∈ Monitoring.alertRules auditEnabled ↔ auditEnabled

variable {set : ArtifactSet} {config : TenantConfig} {forwarder rules secretName : String}

theorem hidesKeysOnly_of_perm
    (hperm : set.fileList.Perm (requiredFiles config forwarder rules secretName)) :
    set.HidesKeysOnly := by
  intro file hmem hhidden
  have hkey := mem_keyMaterial_of_hidden (hperm.mem_iff.mp hmem) hhidden
  exact (key_of_mem_keyMaterial hkey).2.1

theorem agreesOnAudit_of_perm
    (hperm : set.fileList.Perm (requiredFiles config forwarder rules secretName)) :
    set.AgreesOnAudit config.auditEnabled := by
  refine ⟨⟨Node.applyLines config.auditEnabled, ?_, ?_⟩, ⟨?_, ?_⟩, ?_⟩
  · rw [hperm.mem_iff, requiredFiles]
    exact List.mem_append_right _ List.mem_cons_self
  · intro claimed
    exact Node.auditFlag_mem_applyLines claimed config.auditEnabled
  · rintro ⟨file, hmem, hstaged⟩
    exact audit_of_staged (hperm.mem_iff.mp hmem) hstaged
  · intro haudit
    obtain ⟨file, hmem, hstaged⟩ := exists_staged_of_audit haudit
    exact ⟨file, hperm.mem_iff.mpr hmem, hstaged⟩
  · exact Monitoring.auditAlert_mem_alertRules config.auditEnabled

/-- The Secret behind the reference of a document was read, so its keys are there. -/
theorem keysRead_of_perm {ns : String} {ctx : ClusterContext}
    {calls : List (Exchange Call.Answer)}
    (hnamed : ∀ name secret, ⟨.secret ns name, .ok (some secret)⟩ ∈ calls → secret.name = name)
    (hread : ctx.SecretsRead ns calls)
    (hsecret : config.enabledTls.isSome → ∃ reference named secret,
      ctx.reference? reference = some named ∧ named.target.name = secretName ∧
        ctx.secret? reference = some secret ∧ secret.Usable)
    (hperm : set.fileList.Perm (requiredFiles config forwarder rules secretName)) :
    set.KeysRead ns calls := by
  intro file hmem name key hsource
  have hhidden := mem_keyMaterial_of_hidden (hperm.mem_iff.mp hmem) (Or.inr ⟨name, key, hsource⟩)
  obtain ⟨htls, -, found, hfound, hkey⟩ := key_of_mem_keyMaterial hhidden
  cases hsource.symm.trans hkey
  obtain ⟨reference, named, secret, hreference, rfl, hknown, husable⟩ := hsecret htls
  obtain ⟨target, htarget, hcall⟩ := hread reference secret hknown
  cases hreference.symm.trans htarget
  exact ⟨secret, hcall, hnamed named.target.name secret hcall, husable.immutable,
    (husable.keys key).mpr hfound⟩

end ArtifactSet

theorem TenantConfig.isSome_auditConfig_withDefaults (config : TenantConfig) :
    config.withDefaults.auditConfig.isSome := by
  rw [withDefaults]
  split
  · rename_i audit haudit
    rw [haudit]
    rfl
  · rfl

/-- When a document is checked against the view that was made for it and has no faults, its
artifacts can be made: they are the ones that it asks for, the keys that they ask for are there, and
nothing but key material is kept private or looked up later. -/
theorem synthesize_of_validate {ns : String} {config : TenantConfig} {ctx : ClusterContext}
    {calls : List (Exchange Call.Answer)} {before after : RecordStatus}
    (hnamed : ∀ name secret, ⟨.secret ns name, .ok (some secret)⟩ ∈ calls → secret.name = name)
    (hheld : Act.Held (resolveContext ns config.withDefaults) before calls (.ok ctx) after)
    (hvalid : config.withDefaults.validate ctx = []) :
    ∃ set, synthesize config.withDefaults ctx = .ok set ∧ set.Renders config.withDefaults ctx ∧
      set.KeysRead ns calls ∧ set.HidesKeysOnly ∧
        set.AgreesOnAudit config.withDefaults.auditEnabled := by
  obtain ⟨forwarder, hforwarder⟩ : ∃ forwarder,
      Forwarder.configuration config.withDefaults ctx = .ok forwarder :=
    Template.exists_fill Forwarder.configurationTemplate _
  obtain ⟨rules, hrules, haudit⟩ :=
    exists_addAuditRules config.isSome_auditConfig_withDefaults hvalid
  obtain ⟨secretName, hsecret, htls⟩ := exists_addTlsFiles hvalid
  obtain ⟨content, hunit⟩ := Node.exists_unit
  obtain ⟨filled, hfilled, hperm, hunits⟩ :=
    exists_filled config.withDefaults forwarder rules secretName
  refine ⟨⟨filled.files, [⟨Node.unitName, true, content⟩]⟩, ?_,
    ⟨⟨forwarder, rules, secretName, hforwarder, hrules, hperm⟩, content, hunit, rfl⟩,
    ArtifactSet.keysRead_of_perm hnamed
      (ClusterContext.secretsRead_of_resolveContext hheld) hsecret hperm,
    ArtifactSet.hidesKeysOnly_of_perm hperm, ArtifactSet.agreesOnAudit_of_perm hperm⟩
  rw [synthesize_eq hforwarder haudit htls hunit, hfilled]
  show filled.addUnit _ = _
  rw [ArtifactSet.addUnit, hunits]
  rfl

section Sample

/-- A document that asks for a secured connection and brings its own audit rules. -/
def TenantConfig.sample : TenantConfig :=
  ⟨"10.2.64.54", 80, [⟨["sshd"], some 3, none⟩],
    some ⟨true, some "relp-tls", ["collector"], some "name", none⟩, none, none, none, none,
    some ⟨true, some "audit-rules"⟩⟩

def SecretSnapshot.sample : SecretSnapshot :=
  ⟨"relp-tls-v2", true, ["ca", "crt", "key"]⟩

def ConfigMapSnapshot.sample : ConfigMapSnapshot :=
  ⟨"audit-rules-v1", true,
    [("rules", "apiVersion: " ++ documentVersion ++ "\nkind: AuditRules\nauditRules: -D")], []⟩

/-- A cluster that refers to both of them. -/
def Cluster.referring : Cluster :=
  ⟨⟨some "tenant", none, none, [], [], false⟩, ⟨"dev", "logging", "0b7a6b6e", "1.31.4",
    [⟨"relp-tls", "Secret", "relp-tls-v2"⟩, ⟨"audit-rules", "ConfigMap", "audit-rules-v1"⟩]⟩⟩

/-- What is read for that document. -/
def sampleReads : List (Exchange Call.Answer) :=
  [⟨.cluster "tenant", .ok (some .referring)⟩,
   ⟨.secret "tenant" "relp-tls-v2", .ok (some .sample)⟩,
   ⟨.configMap "tenant" "audit-rules-v1", .ok (some .sample)⟩]

/-- The view that comes of it. -/
def ClusterContext.sample : ClusterContext :=
  (Cluster.referring.context.resolve "relp-tls" (.secret .sample)).resolve "audit-rules"
    (.configMap .sample)

theorem sample_named (name : String) (secret : SecretSnapshot)
    (hmem : ⟨.secret "tenant" name, .ok (some secret)⟩ ∈ sampleReads) : secret.name = name := by
  rcases List.mem_cons.mp hmem with hcluster | hmem
  · cases hcluster
  · rcases List.mem_cons.mp hmem with hsecret | hmem
    · cases hsecret
      rfl
    · cases List.mem_singleton.mp hmem

theorem sample_held : Act.Held (resolveContext "tenant" TenantConfig.sample.withDefaults) .initial
    sampleReads (.ok .sample) .initial :=
  ⟨_, _, rfl, _, _, rfl, _, _, rfl, rfl, rfl⟩

theorem sample_valid : TenantConfig.sample.withDefaults.validate .sample = [] := by
  decide +kernel

theorem sample_synthesizes :
    (∀ name secret, ⟨.secret "tenant" name, .ok (some secret)⟩ ∈ sampleReads →
      secret.name = name) ∧
    Act.Held (resolveContext "tenant" TenantConfig.sample.withDefaults) .initial sampleReads
      (.ok .sample) .initial ∧
    TenantConfig.sample.withDefaults.validate .sample = [] ∧
    ∃ set, synthesize TenantConfig.sample.withDefaults .sample = .ok set ∧
      set.Renders TenantConfig.sample.withDefaults .sample ∧ set.KeysRead "tenant" sampleReads ∧
      set.HidesKeysOnly ∧ set.AgreesOnAudit true :=
  ⟨sample_named, sample_held, sample_valid,
    synthesize_of_validate sample_named sample_held sample_valid⟩

end Sample

end LogForwarding
