import LogForwarding.Proofs.Base64
import LogForwarding.Proofs.Collection

/-!
Audit rules arrive as the tenant wrote them.  They travel to the node as Base64 text, which tells
every byte and is read in one way only; and when the tenant brings rules of its own, they are the
only rules that are staged.
-/

namespace LogForwarding

open Actuator

namespace ArtifactSource

/-- Only the text that is written for some bytes stands for them. -/
theorem bytes?_inline_base64 {data : String} {bytes : Bytes} :
    (inline .base64 data).bytes? = some bytes ↔ data = Base64.encode bytes :=
  Base64.decode?_eq_some_iff

@[simp] theorem bytes?_base64 (bytes : Bytes) : (base64 bytes).bytes? = some bytes :=
  bytes?_inline_base64.mpr rfl

end ArtifactSource

/-- The rules of a reference are those of the first document in its ConfigMap. -/
theorem Audit.tenantRules_eq_ok_iff {reference text : String} {ctx : ClusterContext} :
    tenantRules reference ctx = .ok text ↔
      ∃ configMap key raw others rules, ctx.configMap? reference = some configMap ∧
        configMap.data = (key, raw) :: others ∧
        AuditRules.ofBytes (Bytes.ofText raw) = .ok rules ∧ rules.auditRules = text := by
  rw [tenantRules]
  cases hconfigMap : ctx.configMap? reference with
  | none => simp
  | some configMap =>
      cases hdata : configMap.data with
      | nil => simp [hdata]
      | cons entry others =>
          obtain ⟨key, raw⟩ := entry
          cases hrules : AuditRules.ofBytes (Bytes.ofText raw) with
          | error error => simp [hdata, hrules]
          | ok rules => simp [hdata, hrules]

namespace ArtifactSet

variable {set : ArtifactSet}

/-- A file is found under its own path. -/
theorem WellFormed.file?_of_mem (hset : set.WellFormed) {file : Artifact}
    (hmem : file ∈ set.fileList) : set.file? file.path = some file := by
  obtain ⟨⟨path, found⟩, hentry, rfl⟩ := List.mem_map.mp hmem
  obtain rfl : path = found.path := hset.keyed _ hentry
  exact Dictionary.find?_of_mem hset.ordered.nodup_keys hentry

theorem WellFormed.file?_eq_none_iff (hset : set.WellFormed) {path : String} :
    set.file? path = none ↔ path ∉ set.fileList.map Artifact.path := by
  rw [← hset.keys_eq]
  exact Dictionary.find?_eq_none_iff

/-- The tenant's own rules are staged, and no others. -/
structure StagesOwn (set : ArtifactSet) (rules : String) : Prop where
  content : set.text? (Audit.stagedPath Audit.overrideName) = some rules
  only : set.pathsUnder Node.stagedAuditRules = [Audit.stagedPath Audit.overrideName]
  baseline : ∀ name ∈ Audit.baseline.map (·.1), set.file? (Audit.stagedPath name) = none

end ArtifactSet

section Synthesis

variable {config : TenantConfig} {ctx : ClusterContext} {set : ArtifactSet}

theorem auditEnabled_of_auditReference? {reference : String}
    (hreference : auditReference? config = some reference) : config.auditEnabled := by
  obtain ⟨audit, haudit, -⟩ := Option.bind_eq_some_iff.mp hreference
  obtain ⟨hconfig, henabled⟩ := Option.filter_eq_some_iff.mp haudit
  rw [TenantConfig.auditEnabled, hconfig]
  exact henabled

theorem exists_tenantRules_of_ok {before after : ArtifactSet} {reference : String}
    (hreference : auditReference? config = some reference)
    (hadded : before.addAuditRules config ctx = .ok after) :
    ∃ rules, Audit.tenantRules reference ctx = .ok rules := by
  obtain ⟨audit, haudit, hname⟩ := Option.bind_eq_some_iff.mp hreference
  simp only [ArtifactSet.addAuditRules, haudit, hname, bind_eq_ok] at hadded
  obtain ⟨rules, hrules, -⟩ := hadded
  exact ⟨rules, hrules⟩

theorem exists_objectName_of_ok {before after : ArtifactSet}
    (hadded : before.addTlsFiles config ctx = .ok after) :
    ∃ secretName, ∀ tls, config.enabledTls = some tls →
      ctx.objectName? (tls.secretReferenceName.getD "") = some secretName := by
  cases htls : config.enabledTls with
  | none => exact ⟨"", by simp⟩
  | some tls =>
      cases hobject : ctx.objectName? (tls.secretReferenceName.getD "") with
      | none => simp [ArtifactSet.addTlsFiles, htls, hobject] at hadded
      | some secretName => exact ⟨secretName, by rintro other ⟨⟩; exact hobject⟩

/-- When the rules and the Secret are found, the artifacts that the document asks for can be made. -/
theorem exists_synthesized {rules secretName : String} (hset : config.auditConfig.isSome)
    (hrules : ∀ reference, auditReference? config = some reference →
      Audit.tenantRules reference ctx = .ok rules)
    (hnamed : ∀ tls, config.enabledTls = some tls →
      ctx.objectName? (tls.secretReferenceName.getD "") = some secretName) :
    ∃ forwarder set, synthesize config ctx = .ok set ∧ set.WellFormed ∧
      set.fileList.Perm (requiredFiles config forwarder rules secretName) := by
  obtain ⟨forwarder, hforwarder⟩ : ∃ forwarder,
      Forwarder.configuration config ctx = .ok forwarder :=
    Template.exists_fill Forwarder.configurationTemplate _
  obtain ⟨content, hunit⟩ := Node.exists_unit
  obtain ⟨filled, hfilled, hperm, hunits⟩ := exists_filled config forwarder rules secretName
  let unit : UnitDef := ⟨Node.unitName, true, content⟩
  have hadd : filled.add (.unit unit) = .ok ⟨filled.files, filled.units ++ [unit]⟩ :=
    ArtifactSet.addUnit_eq_ok_iff.mpr ⟨by simp [hunits], rfl⟩
  refine ⟨forwarder, _, ?_, (ArtifactSet.wellFormed_empty.addAll hfilled).add hadd, hperm⟩
  rw [synthesize_eq hforwarder (addAuditRules_eq hset hrules) (addTlsFiles_eq hnamed) hunit, hfilled]
  exact hadd

/-- Artifacts that could be made are those that the document asks for. -/
theorem exists_required_of_synthesize {reference : String}
    (hreference : auditReference? config = some reference)
    (hmade : synthesize config ctx = .ok set) :
    ∃ forwarder rules secretName, Audit.tenantRules reference ctx = .ok rules ∧
      set.WellFormed ∧ set.fileList.Perm (requiredFiles config forwarder rules secretName) := by
  obtain ⟨audit, haudit, -⟩ := Option.bind_eq_some_iff.mp hreference
  have hset : config.auditConfig.isSome := by
    rw [(Option.filter_eq_some_iff.mp haudit).1]
    rfl
  -- The rules and the Secret were found, or nothing would have been made.
  have hsteps := hmade
  simp only [synthesize, bind_eq_ok] at hsteps
  obtain ⟨-, -, first, -, second, hstaged, third, hkeys, -⟩ := hsteps
  obtain ⟨rules, hrules⟩ := exists_tenantRules_of_ok hreference hstaged
  obtain ⟨secretName, hnamed⟩ := exists_objectName_of_ok hkeys
  have hfound (other : String) (hother : auditReference? config = some other) :
      Audit.tenantRules other ctx = .ok rules := by
    cases hreference.symm.trans hother
    exact hrules
  obtain ⟨forwarder, made, hother, hwell, hperm⟩ := exists_synthesized hset hfound hnamed
  obtain rfl : made = set := Except.ok.inj (hother.symm.trans hmade)
  exact ⟨forwarder, rules, secretName, hrules, hwell, hperm⟩

theorem stagesOwn_of_perm {reference forwarder rules secretName : String}
    (hreference : auditReference? config = some reference) (hset : set.WellFormed)
    (hperm : set.fileList.Perm (requiredFiles config forwarder rules secretName)) :
    set.StagesOwn rules := by
  have haudit := auditEnabled_of_auditReference? hreference
  have hnames : stagedNames config = [Audit.overrideName] := by
    rw [stagedNames, if_pos haudit, hreference]
    rfl
  have hpaths : (set.fileList.map Artifact.path).Perm
      (requiredPaths [Audit.overrideName] config.enabledTls.isSome) := by
    rw [← hnames, ← map_path_requiredFiles config forwarder rules secretName]
    exact hperm.map Artifact.path
  refine ⟨?_, ?_, ?_⟩
  · have hmem : ⟨Audit.stagedPath Audit.overrideName, .readable, .base64 (Bytes.ofText rules)⟩ ∈
        set.fileList := by
      rw [hperm.mem_iff, requiredFiles, stagedRules, if_pos haudit, hreference]
      simp
    rw [ArtifactSet.text?, hset.file?_of_mem hmem]
    simp [Bytes.toText?_ofText]
  · have hunder : (requiredPaths [Audit.overrideName] config.enabledTls.isSome).filter
        (fun path => beginsWith path Node.stagedAuditRules) =
          [Audit.stagedPath Audit.overrideName] := by
      cases config.enabledTls.isSome <;> decide +kernel
    rw [hset.pathsUnder_eq, ← List.perm_singleton, ← hunder]
    exact hpaths.filter _
  · intro name hname
    rw [hset.file?_eq_none_iff, hpaths.mem_iff]
    revert name
    cases config.enabledTls.isSome <;> decide +kernel

end Synthesis

/-- Whatever bytes are wrapped for the way to a node come out again, and no other text stands for
them.  So where a document refers to audit rules of its own and artifacts can be made, the staged file
holds the rules that the first document of the ConfigMap spells, character by character, and nothing
of the baseline is staged. -/
theorem audit_rules_verbatim :
    (∀ bytes, (ArtifactSource.base64 bytes).bytes? = some bytes) ∧
      (∀ data bytes, (ArtifactSource.inline .base64 data).bytes? = some bytes →
        data = Base64.encode bytes) ∧
      ∀ config ctx set reference, config.auditConfig = some ⟨true, some reference⟩ →
        synthesize config ctx = .ok set →
          ∃ configMap key raw others rules, ctx.configMap? reference = some configMap ∧
            configMap.data = (key, raw) :: others ∧
            AuditRules.ofBytes (Bytes.ofText raw) = .ok rules ∧
            set.StagesOwn rules.auditRules := by
  refine ⟨ArtifactSource.bytes?_base64, fun _ _ => ArtifactSource.bytes?_inline_base64.mp, ?_⟩
  intro config ctx set reference haudit hmade
  have hreference : auditReference? config = some reference := by
    rw [auditReference?, TenantConfig.enabledAudit, haudit]
    rfl
  obtain ⟨forwarder, text, secretName, hrules, hset, hperm⟩ :=
    exists_required_of_synthesize hreference hmade
  obtain ⟨configMap, key, raw, others, rules, hconfigMap, hdata, hread, rfl⟩ :=
    Audit.tenantRules_eq_ok_iff.mp hrules
  exact ⟨configMap, key, raw, others, rules, hconfigMap, hdata, hread,
    stagesOwn_of_perm hreference hset hperm⟩

/-- Rules with an empty line, a NUL, a character that is not of ASCII, and blanks at the end. -/
def Audit.sampleText : String := "-D\n\n-w /\u00e9 \u0000\n  "

/-- A document of one line that spells them. -/
def Audit.sampleDocument : String :=
  "\x7b\"apiVersion\": \"" ++ documentVersion ++ "\", \"kind\": \"AuditRules\", " ++
    "\"auditRules\": \"-D\\n\\n-w /\u00e9 \\u0000\\n  \"\x7d"

/-- A view in which a ConfigMap holds that document and another text behind it. -/
def ClusterContext.sampleRules : ClusterContext :=
  ClusterContext.sample.resolve "audit-rules"
    (.configMap ⟨"audit-rules-v2", true, [("a", Audit.sampleDocument), ("b", "-D")], []⟩)

/-- They are staged as they are. -/
theorem sample_rules_verbatim :
    (ArtifactSource.inline .base64 "LUQ=").bytes? = some [0x2d, 0x44] ∧
      "LUQ=" = Base64.encode [0x2d, 0x44] ∧
      ∃ set, synthesize TenantConfig.sample .sampleRules = .ok set ∧
        set.StagesOwn Audit.sampleText := by
  obtain ⟨-, hcanonical, hstaged⟩ := audit_rules_verbatim
  have hread : (ArtifactSource.inline .base64 "LUQ=").bytes? = some [0x2d, 0x44] := by
    decide +kernel
  refine ⟨hread, hcanonical _ _ hread, ?_⟩
  have hrules : Audit.tenantRules "audit-rules" .sampleRules = .ok Audit.sampleText := by
    decide +kernel
  have hfound (reference : String)
      (hreference : auditReference? TenantConfig.sample = some reference) :
      Audit.tenantRules reference .sampleRules = .ok Audit.sampleText := by
    cases hreference
    exact hrules
  have hnamed (tls : TlsConfig) (htls : TenantConfig.sample.enabledTls = some tls) :
      ClusterContext.sampleRules.objectName? (tls.secretReferenceName.getD "") =
        some "relp-tls-v2" := by
    cases htls
    decide +kernel
  obtain ⟨-, set, hset, -⟩ := exists_synthesized rfl hfound hnamed
  obtain ⟨configMap, key, raw, others, rules, hconfigMap, hdata, hread, hown⟩ :=
    hstaged _ _ set "audit-rules" rfl hset
  have htext : Audit.tenantRules "audit-rules" .sampleRules = .ok rules.auditRules :=
    Audit.tenantRules_eq_ok_iff.mpr ⟨configMap, key, raw, others, rules, hconfigMap, hdata, hread,
      rfl⟩
  rw [hrules] at htext
  exact ⟨set, hset, Except.ok.inj htext ▸ hown⟩

end LogForwarding
