import LogForwarding.Proofs.Bookkeeping
import LogForwarding.Proofs.Trace

/-!
What stands in the way of an opt-in.  The document and the objects that it refers to are looked at
before anything is changed, and the error tells which of them is to blame.
-/

namespace LogForwarding

open Actuator

/-- What can stand in the way of an opt-in. -/
inductive Obstacle where
  /-- The document cannot be decoded. -/
  | undecodable (error : DocumentError)
  | noCluster
  /-- An object cannot be read. -/
  | unread (error : RequestError)
  /-- The controller was told to stop while it read. -/
  | cancelled
  | faults (errors : FieldErrors)
  | unsynthesized (error : SynthesisError)

namespace Obstacle

/-- How an obstacle is told. -/
def error (ns : String) : Obstacle → ReconcileError
  | undecodable error => .document error
  | noCluster => .clusterNotFound ns
  | unread error => .request error
  | cancelled => .cancelled
  | faults errors =>
      if ∀ fault ∈ errors, fault.reference = true then .reference errors else .validation errors
  | unsynthesized error => .synthesis error

/-- Whether an obstacle can go away although the record does not change. -/
def isPassing : Obstacle → Bool
  | noCluster | unread _ | cancelled => true
  | undecodable _ | faults _ | unsynthesized _ => false

/-- The field that is to blame. -/
def field? : Obstacle → Option String
  | faults errors => errors.head?.map FieldError.field
  | _ => none

variable {ns : String} {obstacle : Obstacle}

theorem isRetryable_error : (obstacle.error ns).isRetryable = obstacle.isPassing := by
  cases obstacle with
  | faults errors =>
      rw [error]
      split <;> rfl
  | _ => rfl

theorem fieldPath?_error : (obstacle.error ns).fieldPath? = obstacle.field? := by
  cases obstacle with
  | faults errors =>
      rw [error]
      split <;> rfl
  | _ => rfl

theorem error_eq_document {found : DocumentError} :
    obstacle.error ns = .document found ↔ obstacle = .undecodable found := by
  cases obstacle with
  | faults errors =>
      rw [error]
      split <;> simp
  | _ => simp [error]

theorem error_eq_reference {errors : FieldErrors} :
    obstacle.error ns = .reference errors ↔
      obstacle = .faults errors ∧ ∀ fault ∈ errors, fault.reference := by
  cases obstacle with
  | faults found =>
      rw [error]
      split
      · simp only [ReconcileError.reference.injEq, faults.injEq, iff_self_and]
        rintro rfl
        assumption
      · simp only [reduceCtorEq, faults.injEq, false_iff, not_and]
        rintro rfl
        assumption
  | _ => simp [error]

theorem error_eq_validation {errors : FieldErrors} :
    obstacle.error ns = .validation errors ↔
      obstacle = .faults errors ∧ ∃ fault ∈ errors, ¬ fault.reference := by
  have hexists : (∃ fault ∈ errors, ¬ fault.reference) ↔
      ¬ ∀ fault ∈ errors, fault.reference := by
    simp
  rw [hexists]
  cases obstacle with
  | faults found =>
      rw [error]
      split
      · simp only [reduceCtorEq, faults.injEq, false_iff, not_and, Decidable.not_not]
        rintro rfl
        assumption
      · simp only [ReconcileError.validation.injEq, faults.injEq, iff_self_and]
        rintro rfl
        assumption
  | _ => simp [error]

/-- The document says this, and this is what its cluster was found to hold. -/
def Viewed (record : TenantRecord) (ns : String) (calls : List (Exchange Call.Answer))
    (config : TenantConfig) (ctx : ClusterContext) : Prop :=
  tenantConfig record = .ok config ∧ ∃ reads status, reads <+: calls ∧
    Act.Held (resolveContext ns config.withDefaults) status reads (.ok ctx) status

/-- The obstacles that are met, as far as the calls were answered. -/
inductive Met (record : TenantRecord) (ns : String) (calls : List (Exchange Call.Answer)) :
    Obstacle → Prop
  | undecodable {error : DocumentError} (hdocument : tenantConfig record = .error error) :
      Met record ns calls (.undecodable error)
  | noCluster (hmem : ⟨.cluster ns, .ok none⟩ ∈ calls) : Met record ns calls .noCluster
  | unread {read : Exchange Call.Answer} {error : RequestError} (hmem : read ∈ calls)
      (hread : read.1.isEffect = false) (herror : read.1.outcome read.2 = .error (.request error)) :
      Met record ns calls (.unread error)
  | cancelled {read : Exchange Call.Answer} (hmem : read ∈ calls)
      (hread : read.1.isEffect = false) (herror : read.1.outcome read.2 = .error .cancelled) :
      Met record ns calls .cancelled
  | faults {config : TenantConfig} {ctx : ClusterContext}
      (hviewed : Viewed record ns calls config ctx)
      (hfaults : config.withDefaults.validate ctx ≠ []) :
      Met record ns calls (.faults (config.withDefaults.validate ctx))
  | unsynthesized {config : TenantConfig} {ctx : ClusterContext} {error : SynthesisError}
      (hviewed : Viewed record ns calls config ctx)
      (hvalid : config.withDefaults.validate ctx = [])
      (herror : synthesize config.withDefaults ctx = .error error) :
      Met record ns calls (.unsynthesized error)

end Obstacle

/-- What a call that does not succeed tells. -/
theorem Call.outcome_error {call : Call} {reply : call.Answer} {error : ReconcileError}
    (herror : call.outcome reply = .error error) :
    error = .cancelled ∨ (∃ found, error = .request found) ∨
      call.isEffect ∧ ∃ found, error = .channel found := by
  cases reply with
  | ok result => cases herror
  | cancelled =>
      cases herror
      exact Or.inl rfl
  | failed found =>
      refine Or.inr ?_
      cases call with
      | channel ns bundle action =>
          cases herror
          exact Or.inr ⟨rfl, found, rfl⟩
      | _ =>
          cases herror
          exact Or.inl ⟨found, rfl⟩

/-- A computation that only fails with the error of one of its calls. -/
def FailsByCalls {α : Type} (act : Act α) : Prop :=
  ∀ before calls after error, Act.Held act before calls (.error error) after →
    ∃ exchange ∈ calls, exchange.1.outcome exchange.2 = .error error

namespace FailsByCalls

variable {α β : Type}

theorem pure (result : α) : FailsByCalls (pure result : Act α) := by
  intro before calls after error hheld
  cases (Act.held_pure.mp hheld).2.1

theorem call (made : Call) : FailsByCalls (call made) := by
  intro before calls after error hheld
  obtain ⟨reply, rfl, hreply, -⟩ := Act.held_call.mp hheld
  exact ⟨_, List.mem_singleton_self _, hreply.symm⟩

theorem bind {act : Act α} {f : α → Act β} (hact : FailsByCalls act)
    (hrest : ∀ result, FailsByCalls (f result)) : FailsByCalls (act >>= f) := by
  intro before calls after error hheld
  rcases Act.held_bind.mp hheld with
    ⟨first, rest, result, status, rfl, -, hothers⟩ | ⟨found, hfirst, heq⟩
  · obtain ⟨exchange, hmem, hfailed⟩ := hrest result _ _ _ _ hothers
    exact ⟨exchange, List.mem_append_right _ hmem, hfailed⟩
  · cases heq
    exact hact _ _ _ _ hfirst

theorem resolve (ns : String) (config : TenantConfig) (ctx : ClusterContext) :
    FailsByCalls (resolveSecret ns config ctx >>= resolveConfigMap ns config) := by
  refine .bind ?_ fun ctx => ?_
  · rw [resolveSecret]
    split
    · exact .pure ctx
    · split
      · exact .pure ctx
      · exact .bind (.call _) fun found => .pure _
  · rw [resolveConfigMap]
    split
    · exact .pure ctx
    · split
      · exact .pure ctx
      · exact .bind (.call _) fun found => .pure _

theorem course (ns : String) (course : Course) : FailsByCalls (course.act ns) := by
  induction course with
  | nil => exact .pure ()
  | cons move rest ih =>
      refine .bind ?_ fun _ => ih
      intro before calls after error hheld
      rcases Move.held_act hheld with ⟨habsurd, -⟩ | ⟨call, -, reply, found, rfl, hreply, heq, -⟩
      · cases habsurd
      · cases heq
        exact ⟨_, List.mem_singleton_self _, hreply⟩

end FailsByCalls

section Prepare

variable {record : TenantRecord} {ns : String} {before after : RecordStatus}
  {calls : List (Exchange Call.Answer)}

theorem held_liftExcept {α : Type} {result outcome : Except ReconcileError α}
    (hheld : Act.Held (prepare.liftExcept result) before calls outcome after) :
    calls = [] ∧ outcome = result ∧ after = before :=
  ⟨hheld.1, Prod.mk.inj hheld.2⟩

/-- What a tenant opts in to is known once its document is decoded, its objects are read and the
artifacts are made. -/
theorem held_prepare {outcome : Except ReconcileError (TenantConfig × ArtifactSet)}
    (hheld : Act.Held (prepare record ns) before calls outcome after) :
    (∃ error, tenantConfig record = .error error ∧ calls = [] ∧
      outcome = .error (.document error)) ∨
    ∃ config, tenantConfig record = .ok config ∧
      ((∃ error, Act.Held (resolveContext ns config.withDefaults) before calls (.error error)
          before ∧ outcome = .error error) ∨
        ∃ ctx, Act.Held (resolveContext ns config.withDefaults) before calls (.ok ctx) before ∧
          outcome = (artifacts config.withDefaults ctx).map fun set =>
            (config.withDefaults, set)) := by
  rw [prepare, Act.held_bind] at hheld
  cases hdocument : tenantConfig record with
  | error error =>
      rw [hdocument] at hheld
      rcases hheld with ⟨first, rest, config, status, rfl, hfirst, -⟩ | ⟨found, hfirst, rfl⟩
      · cases (held_liftExcept hfirst).2.1
      · obtain ⟨rfl, herror, -⟩ := held_liftExcept hfirst
        cases herror
        exact Or.inl ⟨error, rfl, rfl, rfl⟩
  | ok config =>
      refine Or.inr ⟨config, rfl, ?_⟩
      rw [hdocument] at hheld
      rcases hheld with ⟨first, rest, found, status, rfl, hfirst, hrest⟩ | ⟨found, hfirst, rfl⟩
      · obtain ⟨rfl, hfound, rfl⟩ := held_liftExcept hfirst
        cases hfound
        rw [Act.held_bind] at hrest
        rcases hrest with ⟨reads, rest, ctx, status, rfl, hreads, hrest⟩ | ⟨error, hreads, rfl⟩
        · obtain ⟨rfl, -⟩ := (Reading.resolveContext ns _).of_held hreads
          refine Or.inr ⟨ctx, ?_⟩
          rw [Act.held_bind] at hrest
          rcases hrest with ⟨made, rest, set, status, rfl, hmade, hrest⟩ | ⟨error, hmade, rfl⟩
          · obtain ⟨rfl, hset, rfl⟩ := held_liftExcept hmade
            obtain ⟨rfl, rfl, rfl⟩ := Act.held_pure.mp hrest
            rw [← hset]
            exact ⟨by simpa using hreads, rfl⟩
          · obtain ⟨rfl, herror, rfl⟩ := held_liftExcept hmade
            rw [← herror]
            exact ⟨by simpa using hreads, rfl⟩
        · obtain ⟨rfl, -⟩ := (Reading.resolveContext ns _).of_held hreads
          exact Or.inl ⟨error, hreads, rfl⟩
      · cases (held_liftExcept hfirst).2.1

/-- Only the first call is about the cluster. -/
theorem asks_resolve (config : TenantConfig) (ctx : ClusterContext) :
    Act.Asks (fun call => ∀ other, call ≠ .cluster other)
      (resolveSecret ns config ctx >>= resolveConfigMap ns config) := by
  refine Act.Asks.bind ?_ fun ctx => ?_
  · rw [resolveSecret]
    split
    · exact fun _ => trivial
    · split
      · exact fun _ => trivial
      · exact Act.Asks.bind (Act.asks_call (by simp)) fun _ _ => trivial
  · rw [resolveConfigMap]
    split
    · exact fun _ => trivial
    · split
      · exact fun _ => trivial
      · exact Act.Asks.bind (Act.asks_call (by simp)) fun _ _ => trivial

theorem outcome_of_noCluster {config : TenantConfig}
    {outcome : Except ReconcileError ClusterContext}
    (hheld : Act.Held (resolveContext ns config) before calls outcome after)
    (hmem : ⟨.cluster ns, .ok none⟩ ∈ calls) : outcome = .error (.clusterNotFound ns) := by
  rw [resolveContext] at hheld
  rcases Act.held_bind.mp hheld with
    ⟨first, rest, found, status, rfl, hfirst, hrest⟩ | ⟨error, hfirst, rfl⟩
  · obtain ⟨rfl, rfl⟩ := Act.held_call_ok.mp hfirst
    cases found with
    | none => exact (Act.held_throw.mp hrest).2.1
    | some cluster =>
        rcases List.mem_cons.mp hmem with habsurd | hmem
        · cases habsurd
        · exact absurd rfl ((asks_resolve config _).of_held hrest _ hmem ns)
  · obtain ⟨reply, rfl, hreply, -⟩ := Act.held_call.mp hfirst
    cases List.mem_singleton.mp hmem
    cases hreply

/-- The objects cannot be read because there is no cluster or because a read has failed. -/
theorem held_resolveContext_error {config : TenantConfig} {error : ReconcileError}
    (hheld : Act.Held (resolveContext ns config) before calls (.error error) after) :
    (⟨.cluster ns, .ok none⟩ ∈ calls ∧ error = .clusterNotFound ns) ∨
      ∃ read ∈ calls, read.1.outcome read.2 = .error error := by
  rw [resolveContext] at hheld
  rcases Act.held_bind.mp hheld with
    ⟨first, rest, found, status, rfl, hfirst, hrest⟩ | ⟨found, hfirst, heq⟩
  · obtain ⟨rfl, rfl⟩ := Act.held_call_ok.mp hfirst
    cases found with
    | none =>
        cases (Act.held_throw.mp hrest).2.1
        exact Or.inl ⟨by simp, rfl⟩
    | some cluster =>
        obtain ⟨read, hmem, hread⟩ := FailsByCalls.resolve ns config _ _ _ _ _ hrest
        exact Or.inr ⟨read, List.mem_append_right _ hmem, hread⟩
  · cases heq
    exact Or.inr (FailsByCalls.call _ _ _ _ _ hfirst)

theorem faultsError_eq {errors : FieldErrors} (hsome : errors ≠ []) :
    faultsError errors = (Obstacle.faults errors).error ns := by
  simp [faultsError, Obstacle.error, FieldErrors.onlyReferences, hsome]

theorem artifacts_of_faults {config : TenantConfig} {ctx : ClusterContext}
    (hfaults : config.validate ctx ≠ []) :
    artifacts config ctx = .error (faultsError (config.validate ctx)) := by
  rw [artifacts]
  split
  · contradiction
  · rfl

/-- An obstacle that is met decides how the preparation ends. -/
theorem outcome_of_met {outcome : Except ReconcileError (TenantConfig × ArtifactSet)}
    {obstacle : Obstacle} (hheld : Act.Held (prepare record ns) before calls outcome after)
    (hmet : obstacle.Met record ns calls) : outcome = .error (obstacle.error ns) := by
  have hreading := ((Reading.prepare record ns).of_held hheld).2.2
  have hviewed {config : TenantConfig} {ctx : ClusterContext}
      (hviewed : Obstacle.Viewed record ns calls config ctx) :
      outcome = (artifacts config.withDefaults ctx).map fun set => (config.withDefaults, set) := by
    obtain ⟨hdocument, reads, status, ⟨more, rfl⟩, hreads⟩ := hviewed
    rcases held_prepare hheld with ⟨error, herror, -⟩ | ⟨found, hfound, hrest⟩
    · rw [hdocument] at herror
      cases herror
    · rw [hdocument] at hfound
      cases hfound
      rcases hrest with ⟨error, hfailed, -⟩ | ⟨known, hknown, rfl⟩
      · cases ((Reading.resolveContext ns _).unique hreads hfailed (List.append_nil _).symm).2
      · cases ((Reading.resolveContext ns _).unique hreads hknown (List.append_nil _).symm).2
        rfl
  cases hmet with
  | undecodable hdocument =>
      rcases held_prepare hheld with ⟨error, herror, -, rfl⟩ | ⟨config, hconfig, -⟩
      · rw [hdocument] at herror
        cases herror
        rfl
      · rw [hdocument] at hconfig
        cases hconfig
  | noCluster hmem =>
      rcases held_prepare hheld with ⟨error, -, rfl, -⟩ | ⟨config, -, hrest⟩
      · cases hmem
      · rcases hrest with ⟨error, hfailed, rfl⟩ | ⟨ctx, hread, -⟩
        · cases outcome_of_noCluster hfailed hmem
          rfl
        · cases outcome_of_noCluster hread hmem
  | unread hmem _ herror => exact (hreading _ hmem).2 _ herror
  | cancelled hmem _ herror => exact (hreading _ hmem).2 _ herror
  | faults hview hfaults =>
      rw [hviewed hview, ← faultsError_eq hfaults, artifacts_of_faults hfaults]
      rfl
  | unsynthesized hview hvalid herror =>
      simp only [hviewed hview, artifacts, hvalid, herror]
      rfl

/-- A preparation that fails has met an obstacle. -/
theorem exists_met_of_error {error : ReconcileError}
    (hheld : Act.Held (prepare record ns) before calls (.error error) after) :
    ∃ obstacle : Obstacle, obstacle.Met record ns calls ∧ error = obstacle.error ns := by
  have hreading := ((Reading.prepare record ns).of_held hheld).2.2
  rcases held_prepare hheld with ⟨found, hdocument, -, heq⟩ | ⟨config, hdocument, hrest⟩
  · cases heq
    exact ⟨.undecodable found, .undecodable hdocument, rfl⟩
  · rcases hrest with ⟨found, hfailed, heq⟩ | ⟨ctx, hread, heq⟩
    · cases heq
      rcases held_resolveContext_error hfailed with ⟨hmem, rfl⟩ | ⟨read, hmem, hreply⟩
      · exact ⟨.noCluster, .noCluster hmem, rfl⟩
      · obtain ⟨hread, -⟩ := hreading read hmem
        rcases Call.outcome_error hreply with rfl | ⟨found, rfl⟩ | ⟨heffect, -⟩
        · exact ⟨.cancelled, .cancelled hmem hread hreply, rfl⟩
        · exact ⟨.unread found, .unread hmem hread hreply, rfl⟩
        · rw [hread] at heffect
          cases heffect
    · have hviewed : Obstacle.Viewed record ns calls config ctx :=
        ⟨hdocument, calls, before, List.prefix_refl calls, hread⟩
      by_cases hvalid : config.withDefaults.validate ctx = []
      · cases hset : synthesize config.withDefaults ctx with
        | ok set =>
            simp only [artifacts, hvalid, hset] at heq
            cases heq
        | error found =>
            simp only [artifacts, hvalid, hset] at heq
            cases heq
            exact ⟨.unsynthesized found, .unsynthesized hviewed hvalid hset, rfl⟩
      · rw [artifacts_of_faults hvalid, faultsError_eq hvalid] at heq
        exact ⟨_, .faults hviewed hvalid, Except.error.inj heq⟩

end Prepare

section OptIn

variable {settings : Settings} {record : TenantRecord} {ns : String} {restore : Bool}
  {before after : RecordStatus} {calls : List (Exchange Call.Answer)}
  {outcome : Except ReconcileError Unit}

/-- Obstacles are met by reading only. -/
theorem Obstacle.Met.of_append {obstacle : Obstacle} {reads rest : List (Exchange Call.Answer)}
    {config : TenantConfig} {set : ArtifactSet}
    (hmet : obstacle.Met record ns (reads ++ rest))
    (hheld : Act.Held (prepare record ns) before reads (.ok (config, set)) after)
    (heffects : ∀ exchange ∈ rest, exchange.1.isEffect) : obstacle.Met record ns reads := by
  have hread {read : Exchange Call.Answer} (hmem : read ∈ reads ++ rest)
      (hread : read.1.isEffect = false) : read ∈ reads := by
    rcases List.mem_append.mp hmem with hmem | hmem
    · exact hmem
    · rw [heffects read hmem] at hread
      cases hread
  have hview {config : TenantConfig} {ctx : ClusterContext}
      (hviewed : Obstacle.Viewed record ns (reads ++ rest) config ctx) :
      Obstacle.Viewed record ns reads config ctx := by
    obtain ⟨hdocument, first, status, ⟨more, heq⟩, hfirst⟩ := hviewed
    rcases held_prepare hheld with ⟨error, -, -, habsurd⟩ | ⟨found, hfound, hrest⟩
    · cases habsurd
    · rw [hdocument] at hfound
      cases hfound
      rcases hrest with ⟨error, -, habsurd⟩ | ⟨known, hknown, -⟩
      · cases habsurd
      · obtain ⟨rfl, -⟩ := (Reading.resolveContext ns _).unique hfirst hknown heq
        exact ⟨hdocument, first, status, List.prefix_refl first, hfirst⟩
  cases hmet with
  | undecodable hdocument => exact .undecodable hdocument
  | noCluster hmem => exact .noCluster (hread hmem rfl)
  | unread hmem hkind herror => exact .unread (hread hmem hkind) hkind herror
  | cancelled hmem hkind herror => exact .cancelled (hread hmem hkind) hkind herror
  | faults hviewed hfaults => exact .faults (hview hviewed) hfaults
  | unsynthesized hviewed hvalid herror => exact .unsynthesized (hview hviewed) hvalid herror

theorem isEffect_of_held_course {course : Course}
    (hheld : Act.Held (course.act ns) before calls outcome after) :
    ∀ exchange ∈ calls, exchange.1.isEffect := by
  have hasks : Act.Asks (fun call => call.isEffect) (course.act ns) := by
    refine Course.asks fun move _ call hcall => ?_
    cases move with
    | channel needed bundle action =>
        cases hcall
        rfl
    | monitoring action =>
        cases hcall
        rfl
    | note change => cases hcall
  exact hasks.of_held hheld

/-- An opt-in stops at an obstacle before it has changed anything. -/
theorem stopped_of_met {obstacle : Obstacle} (hmet : obstacle.Met record ns calls)
    (hheld : Act.Held (enable settings record ns restore) before calls outcome after) :
    callsMade calls = [] ∧ after = before ∧ outcome = .error (obstacle.error ns) := by
  rw [enable_eq, Act.held_bind] at hheld
  rcases hheld with ⟨reads, rest, ⟨config, set⟩, status, rfl, hreads, hrest⟩ | ⟨error, hreads, rfl⟩
  · have hnone := outcome_of_met hreads (hmet.of_append hreads (isEffect_of_held_course hrest))
    cases hnone
  · cases outcome_of_met hreads hmet
    obtain ⟨rfl, -, hreading⟩ := (Reading.prepare record ns).of_held hreads
    refine ⟨List.filter_eq_nil_iff.mpr ?_, rfl, rfl⟩
    intro call hmem
    obtain ⟨exchange, hexchange, rfl⟩ := List.mem_map.mp hmem
    rw [(hreading exchange hexchange).1]
    exact Bool.false_ne_true

/-- An opt-in fails for an obstacle or for a call. -/
theorem exists_met_of_failure {error : ReconcileError}
    (hheld : Act.Held (enable settings record ns restore) before calls (.error error) after) :
    (∃ obstacle : Obstacle, obstacle.Met record ns calls ∧ error = obstacle.error ns) ∨
      error = .cancelled ∨ (∃ found, error = .request found) ∨ ∃ found, error = .channel found := by
  rw [enable_eq, Act.held_bind] at hheld
  rcases hheld with ⟨reads, rest, ⟨config, set⟩, status, rfl, hreads, hrest⟩ | ⟨_, hreads, heq⟩
  · obtain ⟨exchange, -, hfailed⟩ := FailsByCalls.course ns _ _ _ _ _ hrest
    exact Or.inr ((Call.outcome_error hfailed).imp_right (Or.imp_right And.right))
  · cases heq
    exact Or.inl (exists_met_of_error hreads)

end OptIn

/-- Whatever stands in the way of an opt-in, nothing is called but what is read and the status stays
as it is.  The error tells the obstacle, and is worth another try just if the obstacle can pass. -/
theorem hindered_optIn_changes_nothing {settings : Settings} {record : TenantRecord} {ns : String}
    {restore : Bool} {before after : RecordStatus} {calls : List (Exchange Call.Answer)}
    {outcome : Except ReconcileError Unit} (hns : record.metadata.ns = some ns)
    (hheld : Act.Held (execute settings record (.enable restore)) before calls outcome after) :
    (∀ obstacle : Obstacle, obstacle.Met record ns calls →
      callsMade calls = [] ∧ after = before ∧ outcome = .error (obstacle.error ns) ∧
        ((obstacle.error ns).isRetryable ↔ obstacle.isPassing) ∧
          (obstacle.error ns).fieldPath? = obstacle.field?) ∧
    (∀ error, outcome = .error (.document error) ↔
      Obstacle.Met record ns calls (.undecodable error)) ∧
    (∀ errors, outcome = .error (.reference errors) ↔
      Obstacle.Met record ns calls (.faults errors) ∧ ∀ fault ∈ errors, fault.reference) ∧
    ∀ errors, outcome = .error (.validation errors) ↔
      Obstacle.Met record ns calls (.faults errors) ∧ ∃ fault ∈ errors, ¬ fault.reference := by
  rw [execute, hns] at hheld
  have hfailed {error : ReconcileError} (houtcome : outcome = .error error)
      (hkind : error ≠ .cancelled ∧ (∀ found, error ≠ .request found) ∧
        ∀ found, error ≠ .channel found) :
      ∃ obstacle : Obstacle, obstacle.Met record ns calls ∧ error = obstacle.error ns := by
    subst houtcome
    rcases exists_met_of_failure hheld with
      hmet | hcancelled | ⟨found, hrequest⟩ | ⟨found, hchannel⟩
    · exact hmet
    · exact absurd hcancelled hkind.1
    · exact absurd hrequest (hkind.2.1 found)
    · exact absurd hchannel (hkind.2.2 found)
  refine ⟨fun obstacle hmet => ?_, fun error => ?_, fun errors => ?_, fun errors => ?_⟩
  · obtain ⟨hcalls, hafter, houtcome⟩ := stopped_of_met hmet hheld
    exact ⟨hcalls, hafter, houtcome, by rw [Obstacle.isRetryable_error],
      Obstacle.fieldPath?_error⟩
  · constructor
    · intro houtcome
      obtain ⟨obstacle, hmet, herror⟩ := hfailed houtcome (by simp)
      exact Obstacle.error_eq_document.mp herror.symm ▸ hmet
    · exact fun hmet => (stopped_of_met hmet hheld).2.2
  · constructor
    · intro houtcome
      obtain ⟨obstacle, hmet, herror⟩ := hfailed houtcome (by simp)
      obtain ⟨rfl, hall⟩ := Obstacle.error_eq_reference.mp herror.symm
      exact ⟨hmet, hall⟩
    · rintro ⟨hmet, hall⟩
      rw [(stopped_of_met hmet hheld).2.2, Obstacle.error_eq_reference.mpr ⟨rfl, hall⟩]
  · constructor
    · intro houtcome
      obtain ⟨obstacle, hmet, herror⟩ := hfailed houtcome (by simp)
      obtain ⟨rfl, hother⟩ := Obstacle.error_eq_validation.mp herror.symm
      exact ⟨hmet, hother⟩
    · rintro ⟨hmet, hother⟩
      rw [(stopped_of_met hmet hheld).2.2, Obstacle.error_eq_validation.mpr ⟨rfl, hother⟩]

section Sample

/-- A record without a document. -/
def TenantRecord.sampleEmpty : TenantRecord :=
  { TenantRecord.sample false with document := none }

/-- An opt-in of that record. -/
def Execution.sampleEmpty : Execution :=
  .inWorld .standard .sampleEmpty (.enable true) .sampleStuck ⟨.initial, .nothing⟩

/-- The empty document is refused for its target before anything is changed. -/
theorem sampleEmpty_changes_nothing :
    callsMade Execution.sampleEmpty.calls = [] ∧
      Execution.sampleEmpty.after.status = .initial ∧
      ∃ errors : FieldErrors, Execution.sampleEmpty.result = .error (.validation errors) ∧
        errors.firstField = some "target" := by
  have hcalls : Execution.sampleEmpty.calls = [⟨.cluster "tenant", .ok (some .sample)⟩] := rfl
  have hviewed : Obstacle.Viewed .sampleEmpty "tenant" Execution.sampleEmpty.calls .empty
      Cluster.sample.context :=
    ⟨rfl, _, .initial, List.prefix_refl _, .ok (some .sample), [], rfl, rfl, rfl⟩
  have hmet : Obstacle.Met .sampleEmpty "tenant" Execution.sampleEmpty.calls _ :=
    .faults hviewed (by decide +kernel)
  obtain ⟨hstops, -, -, hvalidation⟩ := hindered_optIn_changes_nothing rfl
    (Execution.heldIn_inWorld rfl : Execution.sampleEmpty.HeldIn "tenant").held
  refine ⟨(hstops _ hmet).1, (hstops _ hmet).2.1, _, (hvalidation _).mpr ⟨hmet, ?_⟩, ?_⟩
  · decide +kernel
  · decide +kernel

end Sample

end LogForwarding
