import LogForwarding.Proofs.Bookkeeping
import LogForwarding.Proofs.Trace

/-!
How far a teardown gets.  Its calls are the first ones of a protocol; only the last of them may have
failed, and the status tells which of them were done.
-/

namespace LogForwarding

open Actuator

/-- Whether the first call has found a cluster that is there to stay. -/
def clusterLives : List (Exchange Call.Answer) → Bool
  | ⟨.cluster _, .ok (some cluster)⟩ :: _ => !cluster.metadata.deleting
  | _ => false

namespace Transition

variable (settings : Settings) (ns : String)

/-- The calls on bundles and on monitoring of which a teardown consists.  It depends on whether the
cluster is there to stay and on whether a cleanup was noted. -/
def protocol (lives noted : Bool) : Transition → List Call
  | .enable _ | .retain => []
  | .disable =>
      [.channel ns configurationBundle .withdraw,
       .channel ns configurationBundle (.await .deleted settings.cleanup.deletedTimeout)] ++
      (if lives then
        [.channel ns cleanerBundle (.publish (.ofManifests (Cleanup.manifests settings.images))),
         .channel ns cleanerBundle (.await .healthy settings.cleanup.healthyTimeout),
         .channel ns cleanerBundle .withdraw,
         .channel ns cleanerBundle (.await .deleted settings.cleanup.deletedTimeout)]
      else if noted then [.channel ns cleanerBundle .withdraw] else []) ++
      [.monitoring ns .remove]
  | .forceDelete =>
      [.channel ns configurationBundle .withdraw, .channel ns cleanerBundle .withdraw,
       .monitoring ns .remove]
  | .migrate =>
      [.channel ns configurationBundle .keep, .channel ns configurationBundle .withdraw,
       .channel ns configurationBundle (.await .deleted settings.cleanup.deletedTimeout)] ++
      (if noted then [.channel ns cleanerBundle .withdraw] else []) ++ [.monitoring ns .remove]

/-- The call after which the digest of what was published is forgotten. -/
def forgetting? : Transition → Option Call
  | .disable =>
      some (.channel ns configurationBundle (.await .deleted settings.cleanup.deletedTimeout))
  | .forceDelete => some (.channel ns configurationBundle .withdraw)
  | _ => none

/-- The call after which no cleanup is noted any more. -/
def clearing (lives : Bool) : Transition → Call
  | .disable =>
      if lives then
        .channel ns cleanerBundle (.await .deleted settings.cleanup.deletedTimeout)
      else .channel ns cleanerBundle .withdraw
  | _ => .channel ns cleanerBundle .withdraw

/-- The call after which a cleanup is noted. -/
def cleaning : Call :=
  .channel ns cleanerBundle (.publish (.ofManifests (Cleanup.manifests settings.images)))

/-- The status of a teardown on its way, when these calls were done. -/
def statusOnWay (lives : Bool) (transition : Transition) (done : List Call)
    (before : RecordStatus) : RecordStatus :=
  { before with
    appliedDigest :=
      if (transition.forgetting? settings ns).any (· ∈ done) then none else before.appliedDigest
    cleanupPresent :=
      if transition.clearing settings ns lives ∈ done then false
      else before.cleanupPresent || cleaning settings ns ∈ done }

/-- The phase in which a teardown ends, if it leaves the one in which it began. -/
def endPhase? : Transition → Option Phase
  | .disable => some .disabled
  | .forceDelete => some .forceDeleted
  | .migrate => some .migrating
  | .enable _ | .retain => none

end Transition

/-- A teardown has done the first calls of its protocol and has failed at the next one, if at any,
and its status tells what was done. -/
def Torn (settings : Settings) (ns : String) (lives : Bool) (transition : Transition)
    (before : RecordStatus) (done : List Call) (failed : Option Call) (after : RecordStatus) :
    Prop :=
  done ++ failed.toList <+: transition.protocol settings ns lives before.cleanupPresent ∧
    (failed = none →
      done = transition.protocol settings ns lives before.cleanupPresent) ∧
    after = { transition.statusOnWay settings ns lives done before with
      phase := if failed = none then transition.endPhase?.or before.phase else before.phase }

section Courses

variable (settings : Settings) (ns : String) (before : RecordStatus)

theorem forceCourse_stops (lives : Bool) :
    forceCourse.Stops ns (Torn settings ns lives .forceDelete before) [] before := by
  have hne := configurationBundle_ne_cleanerBundle
  simp [forceCourse, endCourse, Course.Stops, Move.asked?, Move.noted, Torn, Transition.protocol,
    Transition.statusOnWay, Transition.forgetting?, Transition.clearing, Transition.cleaning,
    Transition.endPhase?, hne, hne.symm]

theorem handoverCourse_stops (lives : Bool) :
    (handoverCourse settings).Stops ns (Torn settings ns lives .migrate before) [] before := by
  have hne := configurationBundle_ne_cleanerBundle.symm
  obtain ⟨phase, generation, digest, noted, operation, error⟩ := before
  cases noted <;>
    simp [handoverCourse, withdrawalCourse, cleanupCourse, endCourse, Course.Stops, Move.asked?,
      Move.noted, Torn, Transition.protocol, Transition.statusOnWay, Transition.forgetting?,
      Transition.clearing, Transition.cleaning, Transition.endPhase?, hne]

theorem removalCourse_stops (found : Option Cluster) :
    (removalCourse settings found).Stops ns
      (Torn settings ns (found.any fun cluster => !cluster.metadata.deleting) .disable before) []
      before := by
  have hne := configurationBundle_ne_cleanerBundle.symm
  rw [removalCourse]
  cases found.any fun cluster => !cluster.metadata.deleting with
  | true =>
      simp [withdrawalCourse, cleaningCourse, endCourse, Course.Stops, Move.asked?, Move.noted,
        Torn, Transition.protocol, Transition.statusOnWay, Transition.forgetting?,
        Transition.clearing, Transition.cleaning, Transition.endPhase?, hne]
  | false =>
      obtain ⟨phase, generation, digest, noted, operation, error⟩ := before
      cases noted <;>
        simp [withdrawalCourse, cleanupCourse, endCourse, Course.Stops, Move.asked?, Move.noted,
          Torn, Transition.protocol, Transition.statusOnWay, Transition.forgetting?,
          Transition.clearing, Transition.cleaning, Transition.endPhase?, hne]

end Courses

theorem isEffect_of_mem_protocol {settings : Settings} {ns : String} {lives noted : Bool}
    {transition : Transition} :
    ∀ call ∈ transition.protocol settings ns lives noted, call.isEffect := by
  cases transition <;> cases lives <;> cases noted <;> simp [Transition.protocol, Call.isEffect]

/-- A teardown reads before it changes anything, and may fail at that. -/
theorem exists_torn {settings : Settings} {record : TenantRecord} {ns : String}
    {transition : Transition} {before after : RecordStatus} {calls : List (Exchange Call.Answer)}
    {outcome : Except ReconcileError Unit} (hteardown : ∀ restore, transition ≠ .enable restore)
    (hheld : Act.Held (transit settings record ns transition) before calls outcome after) :
    (∃ reads done failed, (∀ call ∈ reads, call.isEffect = false) ∧
      Tried (reads ++ done) failed calls outcome ∧
        Torn settings ns (clusterLives calls) transition before done failed after) ∨
    ∃ call, call.isEffect = false ∧ Tried [] (some call) calls outcome ∧ after = before := by
  cases transition with
  | enable restore => exact absurd rfl (hteardown restore)
  | disable =>
      rw [transit, disable_eq, Act.held_bind] at hheld
      rcases hheld with ⟨reads, rest, found, middle, rfl, hreads, hrest⟩ | ⟨error, hreads, rfl⟩
      · obtain ⟨rfl, rfl⟩ := Act.held_call_ok.mp hreads
        obtain ⟨done, failed, htried, htorn⟩ :=
          (removalCourse_stops settings ns _ found).of_held hrest
        have hread : ∀ exchange ∈ [(⟨.cluster ns, .ok found⟩ : Exchange Call.Answer)],
            exchange.2.isOk := by
          simp [Reply.isOk]
        refine Or.inl ⟨[.cluster ns], done, failed, by simp [Call.isEffect],
          htried.append hread, ?_⟩
        cases found <;> exact htorn
      · obtain ⟨reply, rfl, hreply, rfl⟩ := Act.held_call.mp hreads
        have htried : Tried [] (some (.cluster ns)) [⟨.cluster ns, reply⟩] (.error error) :=
          ⟨[], reply, error, rfl, rfl, List.forall_mem_nil _, hreply.symm, rfl⟩
        exact Or.inr ⟨.cluster ns, by simp [Call.isEffect], htried, rfl⟩
  | forceDelete =>
      rw [transit, forceDelete_eq] at hheld
      obtain ⟨done, failed, htried, htorn⟩ :=
        (forceCourse_stops settings ns before _).of_held hheld
      exact Or.inl ⟨[], done, failed, List.forall_mem_nil _, htried, htorn⟩
  | migrate =>
      rw [transit, migrate_eq] at hheld
      obtain ⟨done, failed, htried, htorn⟩ :=
        (handoverCourse_stops settings ns before _).of_held hheld
      exact Or.inl ⟨[], done, failed, List.forall_mem_nil _, htried, htorn⟩
  | retain =>
      obtain ⟨rfl, rfl, rfl⟩ := Act.held_pure.mp hheld
      refine Or.inl ⟨[], [], none, List.forall_mem_nil _, ⟨rfl, rfl, List.forall_mem_nil _⟩,
        ⟨List.nil_prefix, fun _ => rfl, ?_⟩⟩
      simp [Transition.statusOnWay, Transition.forgetting?, Transition.endPhase?]

/-- The calls of a teardown are the first ones of its protocol, and none is made after one that has
failed.  It succeeds exactly if the whole protocol was followed without a failure.  If it fails the
phase stays, the digest is forgotten once the configuration is known to be gone or withdrawn by
force, and a cleanup is noted from its publication until it is known to be gone. -/
theorem teardown_follows_protocol {settings : Settings} {record : TenantRecord} {ns : String}
    {transition : Transition} {before after : RecordStatus} {calls : List (Exchange Call.Answer)}
    {outcome : Except ReconcileError Unit} (hns : record.metadata.ns = some ns)
    (hteardown : ∀ restore, transition ≠ .enable restore)
    (hheld : Act.Held (execute settings record transition) before calls outcome after) :
    let protocol := transition.protocol settings ns (clusterLives calls) before.cleanupPresent
    let onWay := transition.statusOnWay settings ns (clusterLives calls) (callsDone calls) before
    callsMade calls <+: protocol ∧
      (∀ earlier exchange later, calls = earlier ++ exchange :: later → ¬ exchange.2.isOk →
        later = []) ∧
      (outcome = .ok () ↔ callsMade calls = protocol ∧ ∀ exchange ∈ calls, exchange.2.isOk) ∧
      (outcome = .ok () → after = { onWay with phase := transition.endPhase?.or before.phase }) ∧
      ∀ error, outcome = .error error → after = onWay ∧ after.phase = before.phase := by
  rw [execute, hns] at hheld
  rcases exists_torn hteardown hheld with
    ⟨reads, done, failed, hreads, htried, hfront, hwhole, rfl⟩ |
    ⟨call, hcall, htried, rfl⟩
  · have heffects : ∀ call ∈ done ++ failed.toList, call.isEffect := fun call hmem =>
      isEffect_of_mem_protocol call (hfront.subset hmem)
    obtain ⟨hmade, hdone⟩ := htried.callsMade_and_callsDone hreads heffects
    rw [hmade, hdone]
    refine ⟨hfront, fun _ _ _ => htried.nothing_after_failure, ?_, ?_, ?_⟩
    · rw [htried.outcome_ok_iff, htried.all_isOk_iff]
      constructor
      · rintro rfl
        exact ⟨by rw [Option.toList_none, List.append_nil]; exact hwhole rfl, rfl⟩
      · exact And.right
    · intro hok
      rw [if_pos (htried.outcome_ok_iff.mp hok)]
    · rintro error rfl
      have hfailed : failed ≠ none := fun habsurd => by
        cases htried.outcome_ok_iff.mpr habsurd
      rw [if_neg hfailed]
      exact ⟨rfl, rfl⟩
  · have hmade : callsMade calls = [] := by
      rw [htried.callsMade_eq]
      simp [hcall]
    have hdone : callsDone calls = [] := htried.callsDone_eq
    rw [hmade, hdone]
    refine ⟨List.nil_prefix, fun _ _ _ => htried.nothing_after_failure, ?_, ?_, ?_⟩
    · rw [htried.outcome_ok_iff, htried.all_isOk_iff]
      simp
    · intro hok
      cases htried.outcome_ok_iff.mp hok
    · intro error _
      exact ⟨by simp [Transition.statusOnWay], rfl⟩

section Sample

/-- A tenant whose messages are forwarded. -/
def RecordStatus.sampleEnabled : RecordStatus :=
  { RecordStatus.initial with phase := some .enabled, appliedDigest := some "8096c035" }

/-- A removal that cannot clean the nodes of that tenant. -/
def Execution.sampleUnclean : Execution :=
  .inWorld .standard (.sample true) .disable .sampleStuck ⟨.sampleEnabled, .nothing⟩

/-- The removal stops while it waits for the nodes to be clean: the tenant counts as enabled, what
was published is forgotten and the cleanup is noted. -/
theorem sample_stops_on_way :
    callsMade Execution.sampleUnclean.calls =
        (Transition.disable.protocol .standard "tenant" true false).take 4 ∧
      Execution.sampleUnclean.result ≠ .ok () ∧
      Execution.sampleUnclean.after.status =
        { RecordStatus.sampleEnabled with appliedDigest := none, cleanupPresent := true } := by
  have hheld : Execution.sampleUnclean.HeldIn "tenant" := Execution.heldIn_inWorld rfl
  obtain ⟨hfront, -, hok, -, -⟩ :=
    teardown_follows_protocol hheld.ns_eq (by simp [Execution.sampleUnclean, Execution.inWorld])
      hheld.held
  have hlength : (callsMade Execution.sampleUnclean.calls).length = 4 := by
    decide +kernel
  have hlives : clusterLives Execution.sampleUnclean.calls = true := by
    decide +kernel
  rw [List.prefix_iff_eq_take, hlength, hlives] at hfront
  refine ⟨hfront, ?_, by decide +kernel⟩
  intro hresult
  have hwhole := congrArg List.length (hok.mp hresult).1
  rw [hlength, hlives] at hwhole
  exact absurd hwhole (by decide)

end Sample

end LogForwarding
