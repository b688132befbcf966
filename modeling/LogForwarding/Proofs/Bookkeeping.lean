import LogForwarding.Proofs.Removal
import LogForwarding.Simulation.World

/-!
What the status of a namespace tells of its cleanup, after any transitions in any order.  Where the
cleanup bundle stands the status says so, and that is all that a later teardown needs in order to
leave nothing behind, whatever failed before.
-/

namespace LogForwarding

open Actuator

/-- The cleanup of a namespace is noted while it stands, and only known objects observe its
tenant. -/
@[mk_iff]
structure Booked (ns : String) (progress : Progress) : Prop where
  observers : ∀ kind name, progress.deployment.observer? ns kind name ≠ none →
    (kind, name) ∈ Monitoring.objectNames
  cleaner : progress.status.cleanupPresent = false → progress.deployment.cleaner? ns = none

theorem Booked.noted {ns : String} {progress : Progress} (hbooked : Booked ns progress)
    (hstands : progress.deployment.cleaner? ns ≠ none) : progress.status.cleanupPresent = true := by
  by_contra hunnoted
  exact hstands (hbooked.cleaner (Bool.eq_false_iff.mpr hunnoted))

/-- Nothing stands for the tenant of a namespace, and no cleanup is noted. -/
def Progress.Cleared (progress : Progress) (ns : String) : Prop :=
  progress.deployment.Clear ns ∧ progress.status.cleanupPresent = false

/-- The transitions after which nothing is to be left. -/
def Transition.clears : Transition → Bool
  | .disable | .forceDelete | .migrate => true
  | _ => false

namespace Course

variable {ns : String} {kept before middle after : Progress → Prop} {first rest : Course}

/-- A course leads from one state of things to another, and where it stops something is kept. -/
def Leads (ns : String) (kept before : Progress → Prop) (course : Course)
    (after : Progress → Prop) : Prop :=
  ∀ progress, before progress → course.Ensures ns (fun outcome progress => match outcome with
    | .ok () => after progress
    | .error _ => kept progress) progress

theorem Leads.append (hfirst : Leads ns kept before first middle)
    (hrest : Leads ns kept middle rest after) : Leads ns kept before (first ++ rest) after := by
  intro progress hbefore
  have hensures := hfirst progress hbefore
  clear hfirst hbefore
  induction first generalizing progress with
  | nil => exact hrest progress hensures
  | cons move others ih => exact ⟨hensures.1, ih _ hensures.2⟩

theorem Leads.mono (hleads : Leads ns kept before first middle)
    (himp : ∀ progress, middle progress → after progress) : Leads ns kept before first after := by
  rw [← List.append_nil first]
  exact hleads.append himp

end Course

/-- The books are kept, and the configuration is withdrawn. -/
@[mk_iff]
structure Withdrawn (ns : String) (progress : Progress) : Prop extends Booked ns progress where
  configuration : progress.deployment.configuration? ns = none

/-- The configuration is withdrawn, and no cleanup is noted. -/
@[mk_iff]
structure Cleaned (ns : String) (progress : Progress) : Prop extends Withdrawn ns progress where
  unnoted : progress.status.cleanupPresent = false

section Courses

variable (settings : Settings) (ns : String)

theorem withdrawalCourse_leads :
    Course.Leads ns (Booked ns) (Booked ns) (withdrawalCourse settings) (Withdrawn ns) := by
  intro progress hbooked
  obtain ⟨hobservers, hcleaner⟩ := hbooked
  have hne := configurationBundle_ne_cleanerBundle
  simp [withdrawalCourse, Course.Ensures, Move.CanFail, withdrawn_iff, booked_iff,
    Deployment.configuration?, Deployment.cleaner?, ChannelAction.effect, hne.symm]
  exact ⟨hobservers, hcleaner⟩

theorem forgetCourse_leads :
    Course.Leads ns (Booked ns) (Withdrawn ns)
      [.note fun status => { status with appliedDigest := none }] (Withdrawn ns) := by
  intro progress hwithdrawn
  exact ⟨False.elim, ⟨hwithdrawn.observers, hwithdrawn.cleaner⟩, hwithdrawn.configuration⟩

theorem cleanupCourse_leads :
    Course.Leads ns (Booked ns) (Withdrawn ns) cleanupCourse (Cleaned ns) := by
  intro progress hwithdrawn
  obtain ⟨⟨hobservers, hcleaner⟩, hconfiguration⟩ := hwithdrawn
  have hne := configurationBundle_ne_cleanerBundle
  simp [cleanupCourse, Course.Ensures, Move.CanFail, cleaned_iff, withdrawn_iff, booked_iff,
    Deployment.configuration?, Deployment.cleaner?, ChannelAction.effect, hne]
  exact ⟨fun _ => ⟨hobservers, hcleaner⟩, ⟨hobservers, hcleaner⟩, hconfiguration⟩

theorem cleaningCourse_leads :
    Course.Leads ns (Booked ns) (Withdrawn ns) (cleaningCourse settings) (Cleaned ns) := by
  intro progress hwithdrawn
  obtain ⟨⟨hobservers, hcleaner⟩, hconfiguration⟩ := hwithdrawn
  have hne := configurationBundle_ne_cleanerBundle
  simp [cleaningCourse, Course.Ensures, Move.CanFail, cleaned_iff, withdrawn_iff, booked_iff,
    Deployment.configuration?, Deployment.cleaner?, ChannelAction.effect, hne]
  exact ⟨⟨hobservers, hcleaner⟩, hobservers, hconfiguration⟩

/-- The cleanup bundle is withdrawn whether it was noted or not. -/
theorem forceCleanup_leads :
    Course.Leads ns (Booked ns) (Withdrawn ns)
      [.always cleanerBundle .withdraw,
       .note fun status => { status with cleanupPresent := false }] (Cleaned ns) := by
  intro progress hwithdrawn
  obtain ⟨⟨hobservers, hcleaner⟩, hconfiguration⟩ := hwithdrawn
  have hne := configurationBundle_ne_cleanerBundle
  simp [Course.Ensures, Move.CanFail, cleaned_iff, withdrawn_iff, booked_iff,
    Deployment.configuration?, Deployment.cleaner?, ChannelAction.effect, hne]
  exact ⟨⟨hobservers, hcleaner⟩, hobservers, hconfiguration⟩

theorem endCourse_leads (phase : Phase) :
    Course.Leads ns (Booked ns) (Cleaned ns) (endCourse phase)
      (fun progress => Booked ns progress ∧ progress.Cleared ns) := by
  intro progress hcleaned
  obtain ⟨⟨⟨hobservers, hcleaner⟩, hconfiguration⟩, hunnoted⟩ := hcleaned
  have hremoved := MonitoringAction.effect_remove_eq_none hobservers
  simp [endCourse, Course.Ensures, Move.CanFail, booked_iff, Progress.Cleared, Deployment.clear_iff,
    Deployment.configuration?, Deployment.cleaner?, Deployment.Unobserved, hunnoted, hremoved]
  have hnone := hcleaner hunnoted
  exact ⟨⟨hobservers, hnone⟩, hnone, hconfiguration, hnone⟩

/-- A teardown keeps the books wherever it stops, and leaves nothing when it succeeds. -/
theorem removalCourse_leads (found : Option Cluster) :
    Course.Leads ns (Booked ns) (Booked ns) (removalCourse settings found)
      (fun progress => Booked ns progress ∧ progress.Cleared ns) := by
  rw [removalCourse]
  have hforgotten := (withdrawalCourse_leads settings ns).append (forgetCourse_leads ns)
  refine (hforgotten.append ?_).append (endCourse_leads ns .disabled)
  split
  · exact cleaningCourse_leads settings ns
  · exact cleanupCourse_leads ns

theorem handoverCourse_leads :
    Course.Leads ns (Booked ns) (Booked ns) (handoverCourse settings)
      (fun progress => Booked ns progress ∧ progress.Cleared ns) := by
  have hkept : Course.Leads ns (Booked ns) (Booked ns) [.always configurationBundle .keep]
      (Booked ns) := by
    intro progress hbooked
    have hne := configurationBundle_ne_cleanerBundle
    simp [Course.Ensures, Move.CanFail, booked_iff, Deployment.cleaner?, hne.symm]
    exact ⟨hbooked.observers, hbooked.cleaner⟩
  have hwithdrawn := hkept.append (withdrawalCourse_leads settings ns)
  exact (hwithdrawn.append (cleanupCourse_leads ns)).append (endCourse_leads ns .migrating)

theorem forceCourse_leads :
    Course.Leads ns (Booked ns) (Booked ns) forceCourse
      (fun progress => Booked ns progress ∧ progress.Cleared ns) := by
  have hwithdrawn : Course.Leads ns (Booked ns) (Booked ns)
      [.always configurationBundle .withdraw] (Withdrawn ns) := by
    intro progress hbooked
    have hne := configurationBundle_ne_cleanerBundle
    simp [Course.Ensures, Move.CanFail, withdrawn_iff, booked_iff, Deployment.configuration?,
      Deployment.cleaner?, ChannelAction.effect, hne.symm]
    exact ⟨hbooked.observers, hbooked.cleaner⟩
  have hforgotten := hwithdrawn.append (forgetCourse_leads ns)
  exact (hforgotten.append (forceCleanup_leads ns)).append (endCourse_leads ns .forceDeleted)

/-- A delivery keeps the books wherever it stops. -/
theorem deliveryCourse_books (restore : Bool) (config : TenantConfig) (set : ArtifactSet) :
    Course.Leads ns (Booked ns) (Booked ns) (deliveryCourse settings ns restore config set)
      (Booked ns) := by
  have hne := configurationBundle_ne_cleanerBundle
  have hcleanup : Course.Leads ns (Booked ns) (Booked ns) cleanupCourse (Booked ns) := by
    intro progress hbooked
    simp [cleanupCourse, Course.Ensures, Move.CanFail, booked_iff, Deployment.cleaner?,
      ChannelAction.effect]
    exact ⟨fun _ => ⟨hbooked.observers, hbooked.cleaner⟩, hbooked.observers, hbooked.cleaner⟩
  have hpublish : Course.Leads ns (Booked ns) (Booked ns) (publishCourse restore set)
      (Booked ns) := by
    intro progress hbooked
    simp [publishCourse, Course.Ensures, Move.CanFail, booked_iff, Deployment.cleaner?, hne.symm]
    exact ⟨fun _ => ⟨hbooked.observers, hbooked.cleaner⟩, hbooked.observers, hbooked.cleaner⟩
  have hobserve : Course.Leads ns (Booked ns) (Booked ns) (observeCourse settings ns config)
      (Booked ns) := by
    intro progress hbooked
    rw [observeCourse]
    split
    · refine ⟨fun _ _ => hbooked, ?_, hbooked.cleaner⟩
      intro kind name hsome
      rw [Move.apply_monitoring_observer?] at hsome
      exact MonitoringAction.mem_objectNames_of_effect_apply hbooked.observers hsome
    · exact hbooked
  refine ((hcleanup.append hpublish).append hobserve).append ?_
  intro progress hbooked
  exact ⟨False.elim, hbooked.observers, hbooked.cleaner⟩

end Courses

/-- However a transition goes the books are kept, and a teardown that succeeds leaves nothing. -/
theorem course_leads_of_takes {settings : Settings} {record : TenantRecord} {ns : String}
    {status : RecordStatus} {reads : List (Exchange Call.Answer)} {transition : Transition}
    {course : Course} (htakes : Takes settings record ns status reads transition course) :
    Course.Leads ns (Booked ns) (Booked ns) course
      (fun progress => Booked ns progress ∧ (transition.clears → progress.Cleared ns)) := by
  cases transition with
  | enable restore =>
      obtain ⟨config, set, -, hcourse⟩ := htakes
      rw [hcourse]
      refine (deliveryCourse_books settings ns restore config set).mono ?_
      exact fun progress hbooked => ⟨hbooked, by simp [Transition.clears]⟩
  | disable =>
      obtain ⟨found, -, hcourse⟩ := htakes
      rw [hcourse]
      exact (removalCourse_leads settings ns found).mono fun _ hleft => ⟨hleft.1, fun _ => hleft.2⟩
  | forceDelete =>
      rw [htakes.2]
      exact (forceCourse_leads ns).mono fun _ hleft => ⟨hleft.1, fun _ => hleft.2⟩
  | migrate =>
      rw [htakes.2]
      exact (handoverCourse_leads settings ns).mono fun _ hleft => ⟨hleft.1, fun _ => hleft.2⟩
  | retain =>
      rw [htakes.2]
      exact fun progress hbooked => ⟨hbooked, by simp [Transition.clears]⟩

/-- One transition of some record, as it was carried out. -/
structure Execution where
  settings : Settings
  record : TenantRecord
  transition : Transition
  before : Progress
  calls : List (Exchange Call.Answer)
  result : Except ReconcileError Unit
  after : Progress

namespace Execution

/-- The actuator carries out the transition, from the status that it is given to the one that it
returns, for a tenant of a namespace. -/
structure HeldIn (execution : Execution) (ns : String) : Prop where
  ns_eq : execution.record.metadata.ns = some ns
  held : Act.Held (execute execution.settings execution.record execution.transition)
    execution.before.status execution.calls execution.result execution.after.status
  deployment_eq : execution.after.deployment =
    Dialogue.after Call.effect execution.calls execution.before.deployment

variable {execution : Execution} {ns : String}

theorem HeldIn.booked (hheld : execution.HeldIn ns) (hbooked : Booked ns execution.before) :
    Booked ns execution.after ∧ (execution.transition.clears → execution.result = .ok () →
      execution.after.Cleared ns) := by
  have hexecuted := hheld.held
  rw [execute, hheld.ns_eq] at hexecuted
  rcases held_transit hexecuted with ⟨reads, course, rest, hcalls, htakes, hsame, hcourse⟩ |
    ⟨error, hresult, hstatus, hsame⟩
  · have hended := ((course_leads_of_takes htakes) execution.before hbooked).of_held hcourse
    rw [← hsame execution.before.deployment, ← Dialogue.after_append, ← hcalls,
      ← hheld.deployment_eq] at hended
    rcases hresult : execution.result with error | done
    · rw [hresult] at hended
      exact ⟨hended, by simp⟩
    · rw [hresult] at hended
      exact ⟨hended.1, fun hclears _ => hended.2 hclears⟩
  · -- Nothing was done when a transition fails while it reads.
    have hafter : execution.after = execution.before := by
      have hdeployment := hheld.deployment_eq
      rw [hsame] at hdeployment
      exact Progress.mk.injEq .. |>.mpr ⟨hstatus, hdeployment⟩
    rw [hafter, hresult]
    exact ⟨hbooked, by simp⟩

end Execution

/-- Transitions are carried out one after the other for a namespace, each with the status that the
one before it has returned. -/
inductive Executions (ns : String) (start : Progress) : List Execution → Progress → Prop
  | start : Executions ns start [] start
  | next {executions : List Execution} {execution : Execution}
      (hpast : Executions ns start executions execution.before) (hheld : execution.HeldIn ns) :
      Executions ns start (executions ++ [execution]) execution.after

namespace Executions

variable {ns : String} {start stop : Progress} {executions : List Execution}

theorem booked (hrun : Executions ns start executions stop) (hstart : Booked ns start) :
    Booked ns stop ∧ ∀ execution ∈ executions, Booked ns execution.after ∧
      (execution.transition.clears → execution.result = .ok () → execution.after.Cleared ns) := by
  induction hrun with
  | start => exact ⟨hstart, by simp⟩
  | next hpast hheld ih =>
      have hstep := hheld.booked ih.1
      refine ⟨hstep.1, ?_⟩
      intro execution hmem
      rcases List.mem_append.mp hmem with hearlier | hlast
      · exact ih.2 execution hearlier
      · rw [List.mem_singleton.mp hlast]
        exact hstep

end Executions

/-- Whatever was carried out before, and whatever of it has failed, the status tells of the cleanup
bundle while it stands, and a teardown that succeeds leaves nothing. -/
theorem cleanup_noted_and_cleared {ns : String} {start stop : Progress}
    {executions : List Execution} (hrun : Executions ns start executions stop)
    (hbundles : ∀ bundle, start.deployment.bundle? ns bundle = none)
    (hobservers : ∀ kind name, start.deployment.observer? ns kind name ≠ none →
      (kind, name) ∈ Monitoring.objectNames) :
    (stop.deployment.cleaner? ns ≠ none → stop.status.cleanupPresent = true) ∧
      ∀ execution ∈ executions,
        (execution.after.deployment.cleaner? ns ≠ none →
          execution.after.status.cleanupPresent = true) ∧
        (execution.transition.clears → execution.result = .ok () →
          execution.after.deployment.Clear ns ∧
            execution.after.status.cleanupPresent = false) := by
  have hstart : Booked ns start := ⟨hobservers, fun _ => hbundles cleanerBundle⟩
  obtain ⟨hstop, hall⟩ := hrun.booked hstart
  refine ⟨hstop.noted, ?_⟩
  intro execution hmem
  obtain ⟨hbooked, hcleared⟩ := hall execution hmem
  exact ⟨hbooked.noted, hcleared⟩

section Sample

/-- The execution of a transition in a world that answers its calls. -/
def Execution.inWorld (settings : Settings) (record : TenantRecord) (transition : Transition)
    (world : Simulation.World) (before : Progress) : Execution :=
  let dialogue := execute settings record transition before.status
  let calls := dialogue.exchangesWith Simulation.World.answer world
  let ended := (dialogue.run Simulation.World.answer world).1
  ⟨settings, record, transition, before, calls, ended.1,
    ⟨ended.2, Dialogue.after Call.effect calls before.deployment⟩⟩

theorem Execution.heldIn_inWorld {settings : Settings} {record : TenantRecord}
    {transition : Transition} {world : Simulation.World} {before : Progress} {ns : String}
    (hns : record.metadata.ns = some ns) :
    (inWorld settings record transition world before).HeldIn ns :=
  ⟨hns, Dialogue.held_run _ _ world, rfl⟩

/-- A world in which the nodes never get clean. -/
def Simulation.World.sampleStuck : Simulation.World where
  cluster := some .sample
  secrets := []
  configMaps := []
  failing
    | .channel _ bundle (.await .healthy seconds) => some (.timeout bundle .healthy seconds.toNat)
    | _ => none
  stopAtCall := none
  stopped := false
  calls := []

/-- A world in which the cluster is gone. -/
def Simulation.World.sampleGone : Simulation.World :=
  ⟨none, [], [], fun _ => none, none, false, []⟩

/-- A removal that cannot clean the nodes. -/
def Execution.sampleStuck : Execution :=
  .inWorld .standard (.sample true) .disable .sampleStuck ⟨.initial, .nothing⟩

/-- Another try of it, when the cluster is gone. -/
def Execution.sampleRetried : Execution :=
  .inWorld .standard (.sample true) .disable .sampleGone Execution.sampleStuck.after

theorem Executions.sample :
    Executions "tenant" ⟨.initial, .nothing⟩ ([] ++ [Execution.sampleStuck] ++
      [Execution.sampleRetried]) Execution.sampleRetried.after :=
  .next (.next .start (Execution.heldIn_inWorld rfl)) (Execution.heldIn_inWorld rfl)

/-- A removal that could not clean the nodes leaves its bundle, and a later one takes it away. -/
theorem sample_noted_and_cleared :
    Execution.sampleStuck.after.deployment.cleaner? "tenant" ≠ none ∧
      Execution.sampleStuck.after.status.cleanupPresent = true ∧
      Execution.sampleRetried.result = .ok () ∧
      Execution.sampleRetried.after.deployment.Clear "tenant" ∧
      Execution.sampleRetried.after.status.cleanupPresent = false := by
  obtain ⟨-, hall⟩ := cleanup_noted_and_cleared Executions.sample (fun _ => rfl)
    (fun _ _ hsome => absurd rfl hsome)
  have hstands : Execution.sampleStuck.after.deployment.cleaner? "tenant" ≠ none := by
    decide +kernel
  have hok : Execution.sampleRetried.result = .ok () := rfl
  refine ⟨hstands, (hall _ (by simp)).1 hstands, hok, ?_⟩
  exact (hall _ (by simp)).2 rfl hok

end Sample

end LogForwarding
