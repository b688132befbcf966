import LogForwarding.Artifact.Synthesis
import LogForwarding.Proofs.Act

/-!
What a document without faults can rely on: the objects behind its references were read in the
namespace of the tenant, and they hold what is made of them.
-/

namespace LogForwarding

open Actuator

theorem checkReference_eq_ok {field kind reference : String} {ctx : ClusterContext}
    {named : NamedReference} :
    checkReference field kind reference ctx = .ok named ↔
      ctx.reference? reference = some named ∧ named.target.kind = kind := by
  rw [checkReference]
  cases hfound : ctx.reference? reference with
  | none => simp
  | some found =>
      by_cases hkind : found.target.kind = kind
      · simp only [hkind, if_true, Except.ok.injEq, Option.some.injEq]
        constructor
        · rintro rfl
          exact ⟨rfl, hkind⟩
        · rintro ⟨rfl, -⟩
          rfl
      · simp only [hkind, if_false, Option.some.injEq]
        constructor
        · intro herror
          cases herror
        · rintro ⟨rfl, heq⟩
          exact absurd heq hkind

theorem keyProblems_eq_nil {keys : List String} :
    keyProblems keys = [] ↔ ∀ key, key ∈ keys ↔ key ∈ tlsSecretKeys := by
  have hempty : keyProblems keys = [] ↔
      (tlsSecretKeys.filter fun key => key ∉ keys) = [] ∧
        (keys.filter fun key => key ∉ tlsSecretKeys) = [] := by
    simp [keyProblems]
  rw [hempty, List.filter_eq_nil_iff, List.filter_eq_nil_iff]
  simp only [decide_eq_true_eq, Decidable.not_not]
  constructor
  · rintro ⟨hpresent, hexpected⟩ key
    exact ⟨hexpected key, hpresent key⟩
  · intro hsame
    exact ⟨fun key => (hsame key).mpr, fun key => (hsame key).mp⟩

/-- A Secret that can be used for secured forwarding. -/
structure SecretSnapshot.Usable (secret : SecretSnapshot) : Prop where
  immutable : secret.immutable
  keys : ∀ key, key ∈ secret.keys ↔ key ∈ tlsSecretKeys

theorem tlsSecretFault_eq_none {reference : String} {ctx : ClusterContext} :
    tlsSecretFault reference ctx = none ↔
      ∃ named secret, ctx.reference? reference = some named ∧ named.target.kind = "Secret" ∧
        ctx.secret? reference = some secret ∧ secret.Usable := by
  constructor
  · intro hnone
    rw [tlsSecretFault] at hnone
    split at hnone
    · cases hnone
    · rename_i named hnamed
      obtain ⟨hreference, hkind⟩ := checkReference_eq_ok.mp hnamed
      split at hnone
      · cases hnone
      · rename_i secret hsecret
        split at hnone
        · cases hnone
        · rename_i himmutable
          split at hnone
          · rename_i hproblems
            have husable : secret.Usable :=
              ⟨Decidable.not_not.mp himmutable, keyProblems_eq_nil.mp hproblems⟩
            exact ⟨named, secret, hreference, hkind, hsecret, husable⟩
          · cases hnone
  · rintro ⟨named, secret, hreference, hkind, hsecret, husable⟩
    have hnamed : checkReference tlsReferenceField "Secret" reference ctx = .ok named :=
      checkReference_eq_ok.mpr ⟨hreference, hkind⟩
    simp only [tlsSecretFault, hnamed, hsecret]
    rw [if_neg (Decidable.not_not.mpr husable.immutable), keyProblems_eq_nil.mpr husable.keys]

/-- A ConfigMap that holds audit rules and nothing else. -/
structure ConfigMapSnapshot.HoldsRules (configMap : ConfigMapSnapshot) (rules : AuditRules) :
    Prop where
  immutable : configMap.immutable
  binaryKeys : configMap.binaryKeys = []
  data : ∃ key raw, configMap.data = [(key, raw)] ∧ AuditRules.ofBytes (Bytes.ofText raw) = .ok rules
  not_blank : ¬ Text.isBlankText rules.auditRules

theorem auditRulesFault_eq_none {configMap : ConfigMapSnapshot} :
    auditRulesFault configMap = none ↔
      ∃ key raw rest rules, configMap.data = (key, raw) :: rest ∧
        AuditRules.ofBytes (Bytes.ofText raw) = .ok rules ∧ ¬ Text.isBlankText rules.auditRules := by
  rw [auditRulesFault]
  cases hdata : configMap.data with
  | nil => simp
  | cons entry rest =>
      obtain ⟨key, raw⟩ := entry
      cases hrules : AuditRules.ofBytes (Bytes.ofText raw) with
      | error error =>
          simp only [hrules, reduceCtorEq, false_iff, not_exists, not_and]
          rintro key raw rest rules heq hok
          cases heq
          exact absurd (hrules.symm.trans hok) (by simp)
      | ok rules =>
          simp only [hrules, ite_eq_right_iff, reduceCtorEq, imp_false]
          constructor
          · intro hblank
            exact ⟨key, raw, rest, rules, rfl, hrules, hblank⟩
          · rintro ⟨key, raw, rest, others, heq, hok, hblank⟩
            cases heq
            cases hrules.symm.trans hok
            exact hblank

/-- A ConfigMap of one key without a fault in its rules holds nothing but them. -/
theorem ConfigMapSnapshot.exists_holdsRules_iff {configMap : ConfigMapSnapshot} :
    (∃ rules, configMap.HoldsRules rules) ↔
      configMap.immutable ∧ configMap.keyCount = 1 ∧ auditRulesFault configMap = none := by
  rw [auditRulesFault_eq_none, keyCount]
  constructor
  · rintro ⟨rules, himmutable, hbinary, ⟨key, raw, hdata, hrules⟩, hblank⟩
    exact ⟨himmutable, by rw [hdata, hbinary]; rfl, key, raw, [], rules, hdata, hrules, hblank⟩
  · rintro ⟨himmutable, hcount, key, raw, rest, rules, hdata, hrules, hblank⟩
    rw [hdata, List.length_cons] at hcount
    have hrest : rest = [] := List.length_eq_zero_iff.mp (by omega)
    have hbinary : configMap.binaryKeys = [] := List.length_eq_zero_iff.mp (by omega)
    subst hrest
    exact ⟨rules, himmutable, hbinary, ⟨key, raw, hdata, hrules⟩, hblank⟩

theorem auditConfigMapFault_eq_none {reference : String} {ctx : ClusterContext} :
    auditConfigMapFault reference ctx = none ↔
      ∃ named configMap rules, ctx.reference? reference = some named ∧
        named.target.kind = "ConfigMap" ∧ ctx.configMap? reference = some configMap ∧
          configMap.HoldsRules rules := by
  constructor
  · intro hnone
    rw [auditConfigMapFault] at hnone
    split at hnone
    · cases hnone
    · rename_i named hnamed
      obtain ⟨hreference, hkind⟩ := checkReference_eq_ok.mp hnamed
      split at hnone
      · cases hnone
      · rename_i configMap hconfigMap
        split at hnone
        · cases hnone
        · rename_i himmutable
          split at hnone
          · cases hnone
          · split at hnone
            · cases hnone
            · rename_i hone
              obtain ⟨rules, hholds⟩ := ConfigMapSnapshot.exists_holdsRules_iff.mpr
                ⟨Decidable.not_not.mp himmutable, Decidable.not_not.mp hone, hnone⟩
              exact ⟨named, configMap, rules, hreference, hkind, hconfigMap, hholds⟩
  · rintro ⟨named, configMap, rules, hreference, hkind, hconfigMap, hholds⟩
    have hnamed : checkReference auditReferenceField "ConfigMap" reference ctx = .ok named :=
      checkReference_eq_ok.mpr ⟨hreference, hkind⟩
    obtain ⟨himmutable, hcount, hfault⟩ :=
      ConfigMapSnapshot.exists_holdsRules_iff.mp ⟨rules, hholds⟩
    simp only [auditConfigMapFault, hnamed, hconfigMap]
    rw [if_neg (Decidable.not_not.mpr himmutable), if_neg (by omega), if_neg (by omega), hfault]

section Validation

variable {config : TenantConfig} {ctx : ClusterContext}

theorem exists_secret_of_validate (hvalid : config.validate ctx = []) {tls : TlsConfig}
    (htls : config.enabledTls = some tls) :
    ∃ reference named secret, tls.secretReferenceName = some reference ∧
      ctx.reference? reference = some named ∧ ctx.secret? reference = some secret ∧
        secret.Usable := by
  obtain ⟨hsome, henabled⟩ := Option.filter_eq_some_iff.mp htls
  simp only [TenantConfig.validate, List.append_eq_nil_iff, List.flatMap_eq_nil_iff,
    Option.mem_toList, checkTls] at hvalid
  have hreference : checkTlsReference tls ctx = [] := (hvalid.1.2 tls hsome).2
  rw [checkTlsReference, if_neg (Decidable.not_not.mpr henabled)] at hreference
  split at hreference
  · cases hreference
  · cases hreference
  · rename_i reference _ hname
    have hnone : tlsSecretFault reference ctx = none := by simpa using hreference
    obtain ⟨named, secret, hnamed, -, hsecret, husable⟩ := tlsSecretFault_eq_none.mp hnone
    exact ⟨reference, named, secret, hname, hnamed, hsecret, husable⟩

theorem exists_rules_of_validate (hvalid : config.validate ctx = []) {audit : AuditConfig}
    (haudit : config.enabledAudit = some audit) {reference : String}
    (hname : audit.configMapReferenceName = some reference) :
    ∃ configMap rules, ctx.configMap? reference = some configMap ∧ configMap.HoldsRules rules := by
  obtain ⟨hsome, henabled⟩ := Option.filter_eq_some_iff.mp haudit
  simp only [TenantConfig.validate, List.append_eq_nil_iff, List.flatMap_eq_nil_iff,
    Option.mem_toList] at hvalid
  have hreference : checkAudit audit ctx = [] := hvalid.2 audit hsome
  rw [checkAudit, if_neg (Decidable.not_not.mpr henabled), hname] at hreference
  split at hreference
  · rename_i hnone
    cases hnone
  · cases hreference
  · rename_i found hfound
    cases hfound
    have hnone : auditConfigMapFault reference ctx = none := by simpa using hreference
    obtain ⟨named, configMap, rules, -, -, hconfigMap, hholds⟩ :=
      auditConfigMapFault_eq_none.mp hnone
    exact ⟨configMap, rules, hconfigMap, hholds⟩

theorem Audit.tenantRules_of_holdsRules {reference : String} {configMap : ConfigMapSnapshot}
    {rules : AuditRules} (hconfigMap : ctx.configMap? reference = some configMap)
    (hholds : configMap.HoldsRules rules) :
    Audit.tenantRules reference ctx = .ok rules.auditRules := by
  obtain ⟨key, raw, hdata, hrules⟩ := hholds.data
  simp only [Audit.tenantRules, hconfigMap, hdata, hrules]

end Validation

namespace ClusterContext

variable {ctx : ClusterContext} {ns : String} {calls : List (Exchange Call.Answer)}

/-- What is known of the Secrets was read of the objects behind their references. -/
def SecretsRead (ctx : ClusterContext) (ns : String) (calls : List (Exchange Call.Answer)) : Prop :=
  ∀ reference secret, ctx.secret? reference = some secret →
    ∃ named, ctx.reference? reference = some named ∧
      ⟨.secret ns named.target.name, .ok (some secret)⟩ ∈ calls

theorem resolved?_resolve (reference other : String) (resource : ResolvedResource) :
    (ctx.resolve reference resource).resolved? other =
      if reference = other then some resource else ctx.resolved? other :=
  Dictionary.find?_insert ctx.resolved reference other resource

theorem SecretsRead.mono (hread : ctx.SecretsRead ns calls) {more : List (Exchange Call.Answer)}
    (hsub : calls ⊆ more) : ctx.SecretsRead ns more := by
  intro reference secret hsecret
  obtain ⟨named, hnamed, hmem⟩ := hread reference secret hsecret
  exact ⟨named, hnamed, hsub hmem⟩

/-- What comes to be known takes the place of what was known under its reference. -/
theorem SecretsRead.resolve (hread : ctx.SecretsRead ns calls) {reference : String}
    {resource : ResolvedResource}
    (hsecret : ∀ secret, resource = .secret secret → ∃ named,
      ctx.reference? reference = some named ∧
        ⟨.secret ns named.target.name, .ok (some secret)⟩ ∈ calls) :
    (ctx.resolve reference resource).SecretsRead ns calls := by
  intro other found hfound
  rw [secret?, resolved?_resolve] at hfound
  by_cases hother : reference = other
  · rw [if_pos hother] at hfound
    cases resource with
    | configMap configMap => cases hfound
    | secret secret =>
        cases hfound
        rw [← hother]
        exact hsecret found rfl
  · rw [if_neg hother] at hfound
    exact hread other found hfound

/-- A reference that leads to an object of a kind is known by it. -/
theorem exists_named_of_target? {kind reference name : String}
    (htarget : target? ctx kind reference = some name) :
    ∃ named, ctx.reference? reference = some named ∧ named.target.name = name := by
  obtain ⟨named, hnamed, hname⟩ := Option.bind_eq_some_iff.mp htarget
  split at hname
  · exact ⟨named, hnamed, Option.some.inj hname⟩
  · cases hname

theorem secretsRead_of_resolveSecret {config : TenantConfig} {before after : RecordStatus}
    {found : ClusterContext} (hread : ctx.SecretsRead ns [])
    (hheld : Act.Held (resolveSecret ns config ctx) before calls (.ok found) after) :
    found.SecretsRead ns calls := by
  rw [resolveSecret] at hheld
  split at hheld
  · obtain ⟨rfl, hfound, -⟩ := Act.held_pure.mp hheld
    cases hfound
    exact hread
  · split at hheld
    · obtain ⟨rfl, hfound, -⟩ := Act.held_pure.mp hheld
      cases hfound
      exact hread
    · rename_i name htarget
      obtain ⟨reads, rest, snapshot, middle, rfl, hreads, hrest⟩ := Act.held_bind_ok.mp hheld
      obtain ⟨rfl, -⟩ := Act.held_call_ok.mp hreads
      obtain ⟨rfl, hfound, -⟩ := Act.held_pure.mp hrest
      cases hfound
      have hmore : ctx.SecretsRead ns [⟨.secret ns name, .ok snapshot⟩] :=
        hread.mono (List.nil_subset _)
      cases snapshot with
      | none => exact hmore
      | some secret =>
          obtain ⟨named, hnamed, hname⟩ := exists_named_of_target? htarget
          refine hmore.resolve fun other hother => ⟨named, hnamed, ?_⟩
          cases hother
          rw [hname]
          exact List.mem_cons_self

theorem secretsRead_of_resolveConfigMap {config : TenantConfig} {before after : RecordStatus}
    {found : ClusterContext} (hread : ctx.SecretsRead ns calls)
    {more : List (Exchange Call.Answer)}
    (hheld : Act.Held (resolveConfigMap ns config ctx) before more (.ok found) after) :
    found.SecretsRead ns calls := by
  rw [resolveConfigMap] at hheld
  split at hheld
  · obtain ⟨-, hfound, -⟩ := Act.held_pure.mp hheld
    cases hfound
    exact hread
  · split at hheld
    · obtain ⟨-, hfound, -⟩ := Act.held_pure.mp hheld
      cases hfound
      exact hread
    · obtain ⟨reads, rest, snapshot, middle, -, -, hrest⟩ := Act.held_bind_ok.mp hheld
      obtain ⟨-, hfound, -⟩ := Act.held_pure.mp hrest
      cases hfound
      cases snapshot with
      | none => exact hread
      | some configMap => exact hread.resolve fun secret hsecret => nomatch hsecret

/-- Whatever a document refers to, and however often, each Secret in the view of its cluster was
read by the name to which its reference leads. -/
theorem secretsRead_of_resolveContext {config : TenantConfig} {before after : RecordStatus}
    (hheld : Act.Held (resolveContext ns config) before calls (.ok ctx) after) :
    ctx.SecretsRead ns calls := by
  rw [resolveContext] at hheld
  obtain ⟨reads, rest, found, middle, rfl, -, hrest⟩ := Act.held_bind_ok.mp hheld
  cases found with
  | none => exact absurd (Act.held_throw.mp hrest).2.1 (by simp)
  | some cluster =>
      obtain ⟨secretCalls, mapCalls, known, status, rfl, hsecret, hconfigMap⟩ :=
        Act.held_bind_ok.mp hrest
      have hnothing : cluster.context.SecretsRead ns [] := by
        intro reference secret hknown
        cases hknown
      have hknown := secretsRead_of_resolveSecret hnothing hsecret
      refine (secretsRead_of_resolveConfigMap hknown hconfigMap).mono ?_
      intro exchange hmem
      exact List.mem_append_right _ (List.mem_append_left _ hmem)

end ClusterContext

end LogForwarding
