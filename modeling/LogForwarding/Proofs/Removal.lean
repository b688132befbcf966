import LogForwarding.Proofs.Run
import Mathlib.Tactic.MkIffOfInductiveProp

/-!
What stands in the cluster while a record can still be looked after.  As long as every outcome is
stored, the status tells what may stand, and so nothing is left behind when the finalizer goes; but
for the configuration of a record that was handed over and could not be enabled again.
-/

namespace LogForwarding

open Actuator Controller

/-- What is wanted of the cleanup of a namespace. -/
def Deployment.cleaner? (deployment : Deployment) (ns : String) : Option BundleSpec :=
  deployment.bundle? ns cleanerBundle

/-- No object stands by which the tenant of a namespace is observed. -/
def Deployment.Unobserved (deployment : Deployment) (ns : String) : Prop :=
  ∀ kind name, deployment.observer? ns kind name = none

/-- Nothing stands for the tenant of a namespace. -/
@[mk_iff]
structure Deployment.Clear (deployment : Deployment) (ns : String) : Prop where
  configuration : deployment.configuration? ns = none
  cleaner : deployment.cleaner? ns = none
  unobserved : deployment.Unobserved ns

section Observers

variable {found : ResourceKind → String → Option Json}

theorem MonitoringAction.mem_objectNames_of_effect_apply {ns : String} {audit : Bool}
    {settings : MonitoringSettings}
    (hfound : ∀ kind name, found kind name ≠ none → (kind, name) ∈ Monitoring.objectNames)
    {kind : ResourceKind} {name : String}
    (hsome : (MonitoringAction.apply (Monitoring.objects ns audit settings)).effect found kind name
      ≠ none) : (kind, name) ∈ Monitoring.objectNames := by
  rw [effect] at hsome
  split at hsome
  case h_1 object hobject =>
    have hmem := List.mem_reverse.mp (List.mem_of_find?_eq_some hobject)
    have hsame := List.find?_some hobject
    simp only [decide_eq_true_eq] at hsame
    rw [← hsame.1, ← hsame.2]
    exact Monitoring.mem_objectNames_of_mem_objects hmem
  case h_2 => exact hfound kind name hsome

theorem MonitoringAction.effect_remove_eq_none
    (hfound : ∀ kind name, found kind name ≠ none → (kind, name) ∈ Monitoring.objectNames)
    (kind : ResourceKind) (name : String) :
    MonitoringAction.remove.effect found kind name = none := by
  rw [effect]
  by_cases hmem : (kind, name) ∈ Monitoring.objectNames
  · exact if_pos hmem
  · rw [if_neg hmem]
    exact Decidable.not_not.mp fun hsome => hmem (hfound kind name hsome)

end Observers

/-- What stands in the cluster shows in the status.  A record that was handed over has nothing but a
configuration, and has that only for a reason. -/
@[mk_iff]
structure Traced (reason : Prop) (ns : String) (progress : Progress) : Prop where
  observers : ∀ kind name, progress.deployment.observer? ns kind name ≠ none →
    (kind, name) ∈ Monitoring.objectNames
  cleaner : progress.status.cleanupPresent = false → progress.deployment.cleaner? ns = none
  handedOver : progress.status.phase = some .migrating →
    progress.deployment.cleaner? ns = none ∧ progress.deployment.Unobserved ns ∧
      (progress.deployment.configuration? ns ≠ none → reason)

theorem Traced.congr {reason : Prop} {ns : String} {before after : Progress}
    (htraced : Traced reason ns before) (hphase : after.status.phase = before.status.phase)
    (hcleanup : after.status.cleanupPresent = before.status.cleanupPresent)
    (hsame : after.deployment = before.deployment) : Traced reason ns after := by
  constructor
  · rw [hsame]
    exact htraced.observers
  · rw [hsame, hcleanup]
    exact htraced.cleaner
  · rw [hsame, hphase]
    exact htraced.handedOver

/-- How a removal can end: what stands is traced, and after a success nothing stands. -/
def Removed (reason : Prop) (ns : String) (outcome : Except ReconcileError Unit)
    (after : Progress) : Prop :=
  Traced reason ns after ∧ (outcome = .ok () → after.deployment.Clear ns)

/-- How a delivery can end: what stands is traced, if there is a reason why a record that was handed
over has a configuration again. -/
def Redelivered (reason : Prop) (settings : Settings) (ns : String) (before : Progress)
    (outcome : Except ReconcileError Unit) (after : Progress) : Prop :=
  (settings.monitoring.enabled → before.status.phase = some .migrating →
    (∃ error, outcome = .error error) → reason) → Traced reason ns after

section Courses

variable {reason : Prop} {settings : Settings} {ns : String} {before : Progress}

theorem removalCourse_ensures (found : Option Cluster) (htraced : Traced reason ns before)
    (hphase : before.status.phase ≠ some .migrating) :
    Course.Ensures ns (Removed reason ns) (removalCourse settings found) before := by
  obtain ⟨hobservers, hcleaner, -⟩ := htraced
  have hne := configurationBundle_ne_cleanerBundle
  have hremoved := MonitoringAction.effect_remove_eq_none hobservers
  cases hstays : found.any fun cluster => !cluster.metadata.deleting
  · simp [removalCourse, withdrawalCourse, cleanupCourse, endCourse, hstays, Course.Ensures,
      Move.CanFail, Removed, traced_iff, Deployment.clear_iff, Deployment.configuration?,
      Deployment.cleaner?, Deployment.Unobserved, ChannelAction.effect, hne.symm, hphase, hremoved]
    exact ⟨⟨hobservers, hcleaner⟩, fun _ => ⟨hobservers, hcleaner⟩, hobservers, hcleaner⟩
  · simp [removalCourse, withdrawalCourse, cleaningCourse, endCourse, hstays, Course.Ensures,
      Move.CanFail, Removed, traced_iff, Deployment.clear_iff, Deployment.configuration?,
      Deployment.cleaner?, Deployment.Unobserved, ChannelAction.effect, hne, hne.symm, hphase,
      hremoved]
    exact ⟨⟨hobservers, hcleaner⟩, hobservers⟩

theorem forceCourse_ensures (htraced : Traced reason ns before) :
    Course.Ensures ns (Removed reason ns) forceCourse before := by
  obtain ⟨hobservers, hcleaner, hover⟩ := htraced
  have hne := configurationBundle_ne_cleanerBundle
  have hremoved := MonitoringAction.effect_remove_eq_none hobservers
  simp [forceCourse, endCourse, Course.Ensures, Move.CanFail, Removed, traced_iff,
    Deployment.clear_iff, Deployment.configuration?, Deployment.cleaner?, Deployment.Unobserved,
    ChannelAction.effect, hne, hne.symm, hremoved]
  refine ⟨⟨hobservers, hcleaner, hover⟩, ⟨hobservers, hcleaner, ?_⟩, hobservers, ?_⟩
  · intro hphase
    exact ⟨(hover hphase).1, (hover hphase).2.1⟩
  · intro hphase
    exact (hover hphase).2.1

theorem handoverCourse_removes (htraced : Traced reason ns before)
    (hphase : before.status.phase ≠ some .migrating) :
    Course.Ensures ns (Removed reason ns) (handoverCourse settings) before := by
  obtain ⟨hobservers, hcleaner, -⟩ := htraced
  have hne := configurationBundle_ne_cleanerBundle
  have hremoved := MonitoringAction.effect_remove_eq_none hobservers
  simp [handoverCourse, withdrawalCourse, cleanupCourse, endCourse, Course.Ensures, Move.CanFail,
    Removed, traced_iff, Deployment.clear_iff, Deployment.configuration?, Deployment.cleaner?,
    Deployment.Unobserved, ChannelAction.effect, hne.symm, hphase, hremoved]
  exact ⟨⟨hobservers, hcleaner⟩, fun _ => ⟨hobservers, hcleaner⟩, hobservers, hcleaner⟩

theorem deliveryCourse_traces {restore : Bool} {config : TenantConfig} {set : ArtifactSet}
    (htraced : Traced reason ns before) :
    Course.Ensures ns (Redelivered reason settings ns before)
      (deliveryCourse settings ns restore config set) before := by
  obtain ⟨hobservers, hcleaner, hover⟩ := htraced
  have hne := configurationBundle_ne_cleanerBundle
  cases hmonitoring : settings.monitoring.enabled
  · simp [deliveryCourse, cleanupCourse, publishCourse, observeCourse, hmonitoring, Course.Ensures,
      Move.CanFail, Redelivered, traced_iff, Deployment.configuration?, Deployment.cleaner?,
      Deployment.Unobserved, hne, hne.symm, ChannelAction.effect]
    refine ⟨fun _ => ⟨hobservers, hcleaner, hover⟩, fun _ => ⟨hobservers, hcleaner, ?_⟩,
      hobservers, hcleaner⟩
    intro hphase
    exact ⟨hcleaner, (hover hphase).2⟩
  · simp [deliveryCourse, cleanupCourse, publishCourse, observeCourse, hmonitoring, Course.Ensures,
      Move.CanFail, Redelivered, traced_iff, Deployment.configuration?, Deployment.cleaner?,
      Deployment.Unobserved, hne, hne.symm, ChannelAction.effect]
    refine ⟨fun _ _ => ⟨hobservers, hcleaner, hover⟩, fun _ _ => ⟨hobservers, hcleaner, ?_⟩,
      fun hreason => ⟨hobservers, hcleaner, ?_⟩, ?_, hcleaner⟩
    · intro hphase
      exact ⟨hcleaner, (hover hphase).2⟩
    · intro hphase
      exact ⟨hcleaner, (hover hphase).2.1, fun _ => hreason hphase⟩
    · intro kind name hsome
      exact MonitoringAction.mem_objectNames_of_effect_apply hobservers hsome

end Courses

namespace TenantRecord

variable {record : TenantRecord}

theorem phase_getD_initial : (record.status.getD .initial).phase = record.phase? := by
  rw [phase?]
  cases record.status <;> rfl

theorem phase?_of_plan_retain (hplan : Transition.plan record = .retain) :
    record.phase? = some .migrating := by
  grind [Transition.plan]

theorem phase?_ne_of_plan_disable (hplan : Transition.plan record = .disable) :
    record.phase? ≠ some .migrating := by
  grind [Transition.plan]

theorem phase?_ne_of_plan_migrate (hplan : Transition.plan record = .migrate) :
    record.phase? ≠ some .migrating := by
  grind [Transition.plan]

end TenantRecord

namespace Controller.Conduct

variable {settings : Settings} {record : TenantRecord} {ns name : String}
  (conduct : Conduct settings record ns name) {deployment : Deployment} {reason : Prop}

/-- Whatever becomes of a removal or a handover, what stands then is traced, and nothing stands after
a success. -/
theorem removed (htraced : Traced reason ns (conduct.start deployment))
    (hplan : Transition.plan record = .disable ∨ Transition.plan record = .forceDelete ∨
      Transition.plan record = .migrate) :
    Removed reason ns conduct.result (conduct.stop deployment) := by
  refine conduct.ensured deployment ?_ ?_
  · intro reads course htakes
    rcases hplan with hplan | hplan | hplan
    · rw [hplan] at htakes
      obtain ⟨found, -, rfl⟩ := htakes
      refine removalCourse_ensures found htraced ?_
      rw [start, TenantRecord.phase_getD_initial]
      exact TenantRecord.phase?_ne_of_plan_disable hplan
    · rw [hplan] at htakes
      obtain ⟨-, rfl⟩ := htakes
      exact forceCourse_ensures htraced
    · rw [hplan] at htakes
      obtain ⟨-, rfl⟩ := htakes
      refine handoverCourse_removes htraced ?_
      rw [start, TenantRecord.phase_getD_initial]
      exact TenantRecord.phase?_ne_of_plan_migrate hplan
  · intro error
    exact ⟨htraced, fun hok => by cases hok⟩

/-- What stands when a conduct ends is traced, unless a delivery has come to no end. -/
theorem traced_stop (htraced : Traced reason ns (conduct.start deployment))
    (hreason : (∃ restore, Transition.plan record = .enable restore) → settings.monitoring.enabled →
      record.phase? = some .migrating → (∃ error, conduct.result = .error error) → reason) :
    Traced reason ns (conduct.stop deployment) := by
  cases hplan : Transition.plan record with
  | enable restore =>
      have hredelivered : Redelivered reason settings ns (conduct.start deployment) conduct.result
          (conduct.stop deployment) := by
        refine conduct.ensured deployment ?_ fun error _ => htraced
        intro reads course htakes
        rw [hplan] at htakes
        obtain ⟨config, set, -, rfl⟩ := htakes
        exact deliveryCourse_traces htraced
      refine hredelivered ?_
      rw [start, TenantRecord.phase_getD_initial]
      exact hreason ⟨restore, hplan⟩
  | disable => exact (conduct.removed htraced (by simp [hplan])).1
  | forceDelete => exact (conduct.removed htraced (by simp [hplan])).1
  | migrate => exact (conduct.removed htraced (by simp [hplan])).1
  | retain =>
      rw [(conduct.stop_of_retain hplan deployment).2]
      exact htraced

/-- When a record is released nothing stands any more, unless it was retained with a
configuration. -/
theorem clear_of_released (htraced : Traced reason ns (conduct.start deployment))
    (hdeleting : record.deleting) (hresult : conduct.result = .ok ())
    (hretain : Transition.plan record = .retain → deployment.configuration? ns = none) :
    (conduct.stop deployment).deployment.Clear ns := by
  cases hplan : Transition.plan record with
  | enable restore => exact absurd hplan (plan_ne_enable_of_deleting hdeleting restore)
  | disable => exact (conduct.removed htraced (by simp [hplan])).2 hresult
  | forceDelete => exact (conduct.removed htraced (by simp [hplan])).2 hresult
  | migrate => exact (conduct.removed htraced (by simp [hplan])).2 hresult
  | retain =>
      have hphase : (conduct.start deployment).status.phase = some .migrating := by
        rw [start, TenantRecord.phase_getD_initial]
        exact TenantRecord.phase?_of_plan_retain hplan
      obtain ⟨hcleaner, hunobserved, -⟩ := htraced.handedOver hphase
      rw [(conduct.stop_of_retain hplan deployment).2]
      exact ⟨hretain hplan, hcleaner, hunobserved⟩

end Controller.Conduct

/-- Calls and the time leave the record as it is, however many of them were answered. -/
theorem record_after_midway {calls : List (Exchange Call.Answer)} {time : String}
    {first : List (Exchange Inquiry.Answer)}
    (hfirst : first <+: calls.map Care.callExchange ++ [Care.apiExchange ⟨.now, time⟩])
    (world : World) : (Dialogue.after Inquiry.effect first world).record = world.record := by
  induction calls generalizing first world with
  | nil =>
      rcases List.prefix_cons_iff.mp hfirst with rfl | ⟨rest, rfl, hrest⟩
      · rfl
      · obtain rfl := List.prefix_nil.mp hrest
        rfl
  | cons exchange others ih =>
      rcases List.prefix_cons_iff.mp hfirst with rfl | ⟨rest, rfl, hrest⟩
      · rfl
      · exact ih hrest _

namespace Controller.Conduct

variable {settings : Settings} {record : TenantRecord} {ns name : String}
  (conduct : Conduct settings record ns name)

/-- Until the outcome is stored, and with it, the finalizer stays. -/
theorem guarded_midway {world : World} (hstored : record.StoredAs world.record)
    (hguarded : record.Guarded) {first : List (Exchange Inquiry.Answer)}
    (hfirst : first <+: conduct.carriedOut) :
    ∃ found : TenantRecord,
      found.StoredAs (Dialogue.after Inquiry.effect first world).record ∧ found.Guarded := by
  rw [carriedOut, List.append_cons] at hfirst
  rcases List.prefix_concat_iff.mp hfirst with hall | hpart
  · obtain ⟨-, status, hfound, -⟩ := conduct.after_carriedOut hstored
    rw [carriedOut, List.append_cons, ← hall] at hfound
    exact ⟨_, hfound, hguarded⟩
  · rw [record_after_midway hpart]
    exact ⟨record, hstored, hguarded⟩

theorem eq_or_midway {first : List (Exchange Inquiry.Answer)}
    (hfirst : first <+: conduct.exchanges) :
    first = conduct.exchanges ∨ first <+: conduct.carriedOut := by
  rw [exchanges] at hfirst ⊢
  cases hending : conduct.ending with
  | nothing =>
      rw [hending, Ending.exchanges, List.append_nil] at hfirst
      exact Or.inr hfirst
  | answered response =>
      rw [hending] at hfirst
      exact List.prefix_concat_iff.mp hfirst
  | released position response =>
      rw [hending] at hfirst
      exact List.prefix_concat_iff.mp hfirst

end Controller.Conduct

/-- The record carries its finalizer, or nothing stands for its tenant. -/
def World.Guards (world : World) (ns : String) : Prop :=
  ∃ record : TenantRecord, record.StoredAs world.record ∧
    (record.Guarded ∨ world.deployment.Clear ns)

namespace Episode

/-- The episode takes the finalizer away. -/
def Releases (episode : Episode) : Prop :=
  episode.record.Guarded ∧
    ∃ kept : TenantRecord, kept.StoredAs episode.after.record ∧ ¬ kept.Guarded

/-- The episode has failed to enable a record again that was handed over, with the objects by which
its tenant is to be observed. -/
def Stalls (settings : Settings) (episode : Episode) : Prop :=
  (∃ restore, Transition.plan episode.record = .enable restore) ∧ settings.monitoring.enabled ∧
    episode.record.phase? = some .migrating ∧ ¬ episode.Succeeds

variable {settings : Settings} {episode : Episode} {ns name : String} {reason : Prop}

/-- An episode leaves what stands traced, and nothing unguarded. -/
theorem guards_after (hheld : episode.HeldBy settings) (hnamed : episode.record.Named ns name)
    (hstores : episode.record.Guarded → episode.Stores)
    (htraced : Traced reason ns
      ⟨episode.record.status.getD .initial, episode.before.deployment⟩)
    (hreason : episode.Stalls settings → reason) {kept : TenantRecord}
    (hkept : kept.StoredAs episode.after.record) :
    Traced reason ns ⟨kept.status.getD .initial, episode.after.deployment⟩ ∧
      ((episode.record.Guarded ∨ episode.before.deployment.Clear ns) →
        (episode.Releases → Transition.plan episode.record = .retain →
          episode.before.deployment.configuration? ns = none) →
        kept.Guarded ∨ episode.after.deployment.Clear ns) := by
  by_cases hguarded : episode.record.Guarded
  · obtain ⟨conduct, hexchanges, hsuccess⟩ := exists_conduct hnamed hguarded hheld.2
    obtain ⟨hdeployment, found, hfound, -, hleaves, hfinalizers⟩ := conduct.after_exchanges hheld.1
    rw [← hexchanges] at hdeployment hfound
    obtain rfl := hkept.unique hfound
    have hgranted := (Episode.stores_iff_granted conduct hexchanges).mp (hstores hguarded)
    obtain ⟨status, hstatus, hphase, -, hcleanup⟩ := hleaves.of_granted hgranted
    have hsame : episode.after.deployment =
        (conduct.stop episode.before.deployment).deployment := hdeployment
    refine ⟨?_, ?_⟩
    · rw [hstatus]
      refine (conduct.traced_stop htraced ?_).congr hphase hcleanup hsame
      rintro hplan hmonitoring hphase ⟨error, herror⟩
      refine hreason ⟨hplan, hmonitoring, hphase, fun hsucceeds => ?_⟩
      rw [(hsuccess hsucceeds).1] at herror
      cases herror
    · intro _ hretain
      by_cases hstays : kept.Guarded
      · exact Or.inl hstays
      · rcases hfinalizers with heq | ⟨position, response, hending⟩
        · rw [TenantRecord.Guarded, heq] at hstays
          exact absurd hguarded hstays
        · obtain ⟨hresult, -⟩ := conduct.result_of_ending (by simp [hending])
          rw [hsame]
          exact Or.inr (conduct.clear_of_released htraced
            (conduct.deleting_of_released _ _ hending) hresult
            (hretain ⟨hguarded, kept, hkept, hstays⟩))
  · obtain ⟨hsame, found, hfound, -, hstatus⟩ := Episode.after_of_unguarded hheld hnamed hguarded
    obtain rfl := hkept.unique hfound
    rw [hsame, hstatus]
    exact ⟨htraced, fun hguards _ => Or.inr (hguards.resolve_left hguarded)⟩

/-- In every state of an episode the record carries its finalizer, or nothing stands, if this is so
before and after it. -/
theorem guards_midway (hheld : episode.HeldBy settings) (hnamed : episode.record.Named ns name)
    (hbefore : episode.record.Guarded ∨ episode.before.deployment.Clear ns)
    (hafter : episode.after.Guards ns) {first : List (Exchange Inquiry.Answer)}
    (hfirst : first <+: episode.exchanges) :
    World.Guards (Dialogue.after Inquiry.effect first episode.before) ns := by
  by_cases hguarded : episode.record.Guarded
  · obtain ⟨conduct, hexchanges, -⟩ := exists_conduct hnamed hguarded hheld.2
    rw [hexchanges] at hfirst
    rcases conduct.eq_or_midway hfirst with hall | hpart
    · rw [hall, ← hexchanges]
      exact hafter
    · obtain ⟨found, hfound, hstays⟩ := conduct.guarded_midway hheld.1 hguarded hpart
      exact ⟨found, hfound, Or.inl hstays⟩
  · have hcases : first = [] ∨ first = episode.exchanges := by
      rcases held_unguarded hnamed hguarded hheld.2 with ⟨-, hnil⟩ | ⟨-, response, hone⟩
      · rw [hnil] at hfirst
        exact Or.inl (List.prefix_nil.mp hfirst)
      · rw [hone] at hfirst ⊢
        rcases List.prefix_cons_iff.mp hfirst with hnil | ⟨rest, rfl, hrest⟩
        · exact Or.inl hnil
        · rw [List.prefix_nil.mp hrest]
          exact Or.inr rfl
    rcases hcases with rfl | rfl
    · exact ⟨episode.record, hheld.1, hbefore⟩
    · exact hafter

end Episode

/-- What stands is traced, and if it is safe to release records it is guarded. -/
def World.Kept (world : World) (reason safe : Prop) (ns name : String) : Prop :=
  ∃ record : TenantRecord, record.StoredAs world.record ∧ record.Named ns name ∧
    Traced reason ns ⟨record.status.getD .initial, world.deployment⟩ ∧
    (safe → record.Guarded ∨ world.deployment.Clear ns)

namespace Run

variable {settings : Settings} {start world : World} {episodes : List Episode} {ns name : String}

theorem kept {reason safe : Prop} (hrun : Run settings start episodes world)
    (hfresh : start.Fresh ns name) (hclear : start.deployment.Clear ns)
    (hstores : ∀ episode ∈ episodes, episode.record.Guarded → episode.Stores)
    (hreason : ∀ episode ∈ episodes, episode.Stalls settings → reason)
    (hretain : ∀ episode ∈ episodes, safe → episode.Releases →
      Transition.plan episode.record = .retain →
        episode.before.deployment.configuration? ns = none) :
    world.Kept reason safe ns name := by
  refine hrun.invariant (World.Kept · reason safe ns name) ?_ ?_ ?_
  · obtain ⟨record, hstored, hnamed, hnone⟩ := hfresh
    refine ⟨record, hstored, hnamed, ⟨?_, fun _ => hclear.cleaner, ?_⟩, fun _ => Or.inr hclear⟩
    · intro kind name hsome
      exact absurd (hclear.unobserved kind name) hsome
    · intro hphase
      rw [hnone] at hphase
      cases hphase
  · rintro world edited ⟨record, hstored, hnamed, htraced, hguards⟩
      ⟨old, new, hold, hnew, hns, hname, hfinalizers, hstatus, -⟩
    obtain rfl := hstored.unique hold
    refine ⟨new, hnew, ⟨hns.trans hnamed.ns_eq, hname.trans hnamed.name_eq, hnamed.name_ne⟩, ?_, ?_⟩
    · rw [hstatus]
      exact htraced
    · rw [TenantRecord.Guarded, hfinalizers]
      exact hguards
  · rintro episode hmem hheld ⟨record, hstored, hnamed, htraced, hguards⟩
    obtain rfl := hstored.unique hheld.1
    obtain ⟨kept, hkept, hsame⟩ := Episode.exists_after hheld hnamed
    obtain ⟨htraced', hguards'⟩ := Episode.guards_after hheld hnamed (hstores episode hmem) htraced
      (hreason episode hmem) hkept
    exact ⟨kept, hkept, hsame.named hnamed, htraced', fun hsafe =>
      hguards' (hguards hsafe) (hretain episode hmem hsafe)⟩

/-- As long as no record is retained and released while its configuration stands, nothing stands
without a finalizer. -/
theorem guards (hrun : Run settings start episodes world) (hfresh : start.Fresh ns name)
    (hclear : start.deployment.Clear ns)
    (hstores : ∀ episode ∈ episodes, episode.record.Guarded → episode.Stores)
    (hsafe : ∀ episode ∈ episodes, episode.Releases → Transition.plan episode.record = .retain →
      episode.before.deployment.configuration? ns = none) : world.Guards ns := by
  have hkept : world.Kept True True ns name :=
    hrun.kept hfresh hclear hstores (fun _ _ _ => trivial) fun episode hmem _ => hsafe episode hmem
  obtain ⟨record, hstored, -, -, hguards⟩ := hkept
  exact ⟨record, hstored, hguards trivial⟩

end Run

/-- In a run in which every outcome is stored, nothing stands in any state without the finalizer of
its record, unless a record is retained and released while its configuration stands.  It can only
stand then after the record was handed over and enabled again in vain, for want of the objects by
which its tenant is observed. -/
theorem guards_all_along_iff {settings : Settings} {start world : World} {episodes : List Episode}
    {ns name : String} (hfresh : start.Fresh ns name) (hclear : start.deployment.Clear ns)
    (hrun : Run settings start episodes world)
    (hstores : ∀ episode ∈ episodes, episode.record.Guarded → episode.Stores) :
    ((world.Guards ns ∧ ∀ episode ∈ episodes, ∀ first, first <+: episode.exchanges →
        World.Guards (Dialogue.after Inquiry.effect first episode.before) ns) ↔
      ∀ episode ∈ episodes, episode.Releases → Transition.plan episode.record = .retain →
        episode.before.deployment.configuration? ns = none) ∧
    ∀ episode ∈ episodes, Transition.plan episode.record = .retain →
      episode.before.deployment.configuration? ns ≠ none →
        ∃ other ∈ episodes, other.Stalls settings := by
  have hpart : ∀ {earlier later : List Episode} {episode : Episode},
      episodes = earlier ++ episode :: later →
        ∀ other ∈ earlier ++ [episode], other ∈ episodes := by
    rintro earlier later episode rfl other hmem
    rcases List.mem_append.mp hmem with hmem | hmem
    · exact List.mem_append_left _ hmem
    · rw [List.mem_singleton.mp hmem]
      exact List.mem_append_right _ List.mem_cons_self
  refine ⟨⟨?_, ?_⟩, ?_⟩
  · rintro ⟨-, hall⟩ episode hmem ⟨hguarded, kept, hkept, hreleased⟩ hplan
    obtain ⟨earlier, later, hsplit⟩ := List.append_of_mem hmem
    obtain ⟨hbefore, hheld⟩ := hrun.before_of_mem hsplit
    obtain ⟨record, hstored, hnamed⟩ := hbefore.named hfresh
    obtain rfl := hstored.unique hheld.1
    obtain ⟨conduct, hexchanges, -⟩ := exists_conduct hnamed hguarded hheld.2
    obtain ⟨hdeployment, -⟩ := conduct.after_exchanges hheld.1
    obtain ⟨found, hfound, hguards⟩ := hall episode hmem episode.exchanges (List.prefix_refl _)
    obtain rfl := hkept.unique hfound
    have hclear := hguards.resolve_left hreleased
    have hsame := (conduct.stop_of_retain hplan episode.before.deployment).2
    rw [hexchanges, hdeployment] at hclear
    rw [Conduct.stop, Conduct.start, Progress.mk.injEq] at hsame
    rw [hsame.2] at hclear
    exact hclear.configuration
  · intro hsafe
    refine ⟨hrun.guards hfresh hclear hstores hsafe, ?_⟩
    intro episode hmem first hfirst
    obtain ⟨earlier, later, hsplit⟩ := List.append_of_mem hmem
    obtain ⟨hbefore, hheld⟩ := hrun.before_of_mem hsplit
    obtain ⟨record, hstored, hnamed⟩ := hbefore.named hfresh
    obtain rfl := hstored.unique hheld.1
    have hknown := hpart hsplit
    obtain ⟨found, hfound, hguards⟩ := hbefore.guards hfresh hclear
      (fun other hother => hstores other (hknown other (List.mem_append_left _ hother)))
      (fun other hother => hsafe other (hknown other (List.mem_append_left _ hother)))
    obtain rfl := hheld.1.unique hfound
    have hafter : episode.after.Guards ns := (Run.look hbefore hheld).guards hfresh hclear
      (fun other hother => hstores other (hknown other hother))
      (fun other hother => hsafe other (hknown other hother))
    exact Episode.guards_midway hheld hnamed hguards hafter hfirst
  · intro episode hmem hplan hstands
    obtain ⟨earlier, later, hsplit⟩ := List.append_of_mem hmem
    obtain ⟨hbefore, hheld⟩ := hrun.before_of_mem hsplit
    have hknown := hpart hsplit
    have hkept : episode.before.Kept (∃ other ∈ episodes, other.Stalls settings) False ns name := by
      refine hbefore.kept hfresh hclear ?_ ?_ ?_
      · intro other hother
        exact hstores other (hknown other (List.mem_append_left _ hother))
      · intro other hother hstalls
        exact ⟨other, hknown other (List.mem_append_left _ hother), hstalls⟩
      · intro other _ hfalse
        exact hfalse.elim
    obtain ⟨record, hstored, -, htraced, -⟩ := hkept
    obtain rfl := hstored.unique hheld.1
    refine (htraced.handedOver ?_).2.2 hstands
    rw [TenantRecord.phase_getD_initial]
    exact TenantRecord.phase?_of_plan_retain hplan

/-- When a record is removed at the first look, nothing stands at any time without its finalizer. -/
theorem sample_guards_all_along :
    (Episode.sample true).after.Guards "tenant" ∧
      ∀ first, first <+: (Episode.sample true).exchanges →
        World.Guards (Dialogue.after Inquiry.effect first (Episode.sample true).before) "tenant" := by
  have hguards := (guards_all_along_iff (Episode.sample_fresh true)
    ⟨rfl, rfl, fun _ _ => rfl⟩ (Run.sample true) ?_).1.mpr ?_
  · exact ⟨hguards.1, hguards.2 _ (by simp)⟩
  · intro episode hmem hguarded
    obtain rfl := List.mem_singleton.mp hmem
    exact Episode.unhindered_stores (TenantRecord.sample_storedAs true)
      (TenantRecord.sample_named true) hguarded
  · intro episode hmem _ hplan
    obtain rfl := List.mem_singleton.mp hmem
    cases hplan

end LogForwarding
