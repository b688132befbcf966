import LogForwarding.Proofs.Requests
import LogForwarding.Proofs.Run

/-!
How a tenant opts out.  The finalizer of a record that is removed in the ordinary way is only taken
away after the configuration was gone, the nodes were cleaned and the cleanup was gone, and nothing
is brought to the nodes of a record that is being removed.
-/

namespace LogForwarding

open Actuator Controller

/-- One look after a record with requests to an API server. -/
structure Visit where
  record : TenantRecord
  exchanges : List (Exchange ApiQuestion.Answer)
  outcome : Except ReconcileError Requeue

namespace Visit

/-- The controller looks after the record, whatever it is answered. -/
def HeldBy (settings : Settings) (visit : Visit) : Prop :=
  (reconcile settings visit.record).Held visit.exchanges visit.outcome

/-- The record is neither to be deleted by force nor to be handed over, and was not handed over. -/
structure Ordinary (visit : Visit) : Prop where
  not_forced : ¬ visit.record.forceDeleteRequested
  step_ne : visit.record.migrationStep? ≠ some .migrate
  phase_ne : visit.record.phase? ≠ some .migrating

/-- Whatever is told of the cluster of the tenant, it is there to stay. -/
def ClusterStays (visit : Visit) (ns : String) : Prop :=
  ∀ (response : ApiResponse) (found : Option Cluster),
    ⟨.attempt (.get ⟨.cluster, none, ns⟩), some response⟩ ∈ visit.exchanges →
      response.Tells Cluster.decode found →
        ∃ cluster, found = some cluster ∧ ¬ cluster.metadata.deleting

/-- The finalizer is taken away from the record. -/
def Releases (visit : Visit) (ns name : String) : Prop :=
  ∃ (position : Nat) (response : ApiResponse),
    ⟨.request (.patch (recordKey ns name) (removeFinalizer position)), response⟩ ∈ visit.exchanges

end Visit

/-- What happens in this order before a record of the tenant is released. -/
def optOut (ns name : String) (settings : Settings) : List Milestone :=
  let configuration : ObjectKey := ⟨.bundle, some ns, configurationBundle⟩
  let cleaner : ObjectKey := ⟨.bundle, some ns, cleanerBundle⟩
  [.removed configuration, .absent configuration,
   .published cleaner (.ofManifests (Cleanup.manifests settings.images)), .healthy cleaner,
   .removed cleaner, .absent cleaner] ++
  Monitoring.objectNames.map (fun (kind, object) => .removed ⟨kind, some ns, object⟩) ++
  [.stored (recordKey ns name) .disabled, .released (recordKey ns name)]

theorem plan_eq_disable {visit : Visit} (hordinary : visit.Ordinary)
    (hdeleting : visit.record.deleting) : Transition.plan visit.record = .disable := by
  rw [Transition.plan, if_pos hdeleting, if_neg hordinary.not_forced, if_neg hordinary.phase_ne,
    if_neg hordinary.step_ne]

theorem addFinalizer_ne_removeFinalizer (present : List String) (position : Nat) :
    addFinalizer present ≠ removeFinalizer position := by
  rw [addFinalizer]
  split
  · simp [removeFinalizer]
  · simp [removeFinalizer]

namespace Controller.Conduct

variable {settings : Settings} {record : TenantRecord} {ns name : String}
  (conduct : Conduct settings record ns name)

/-- The calls of a removal that succeeds while the cluster stays. -/
theorem calls_of_disable (hplan : Transition.plan record = .disable)
    (hresult : conduct.result = .ok ()) :
    ∃ found : Option Cluster,
      conduct.calls = ⟨.cluster ns, .ok found⟩ ::
        (removalCourse settings found).calls ns (record.status.getD .initial) ∧
      conduct.status = (removalCourse settings found).noted (record.status.getD .initial) := by
  have hheld := conduct.held
  rw [hplan, hresult, transit, disable_eq] at hheld
  obtain ⟨reads, rest, found, middle, hcalls, hreads, hrest⟩ := Act.held_bind_ok.mp hheld
  obtain ⟨rfl, rfl⟩ := Act.held_call_ok.mp hreads
  obtain ⟨rfl, hstatus⟩ := Course.held_act_ok hrest
  exact ⟨found, hcalls, hstatus⟩

end Controller.Conduct

/-- While a record is being removed no call writes anything as a whole but the cleanup. -/
theorem asks_of_deleting {settings : Settings} {record : TenantRecord} {ns : String}
    (hdeleting : record.deleting) :
    Act.Asks (fun call => ∀ key ∈ call.written, key = ⟨.bundle, some ns, cleanerBundle⟩)
      (transit settings record ns (Transition.plan record)) := by
  cases hplan : Transition.plan record with
  | enable restore => exact absurd hplan (plan_ne_enable_of_deleting hdeleting restore)
  | retain => exact fun _ => trivial
  | forceDelete =>
      rw [transit, forceDelete_eq]
      refine Course.asks ?_
      simp [forceCourse, endCourse, Move.call?, Call.written]
  | migrate =>
      rw [transit, migrate_eq]
      refine Course.asks ?_
      simp [handoverCourse, withdrawalCourse, cleanupCourse, endCourse, Move.call?, Call.written]
  | disable =>
      rw [transit, disable_eq]
      refine Act.Asks.bind (Act.asks_call (by simp [Call.written])) fun found => Course.asks ?_
      cases hstays : found.any fun cluster => !cluster.metadata.deleting <;>
        simp [removalCourse, hstays, withdrawalCourse, cleaningCourse, cleanupCourse, endCourse,
          Move.call?, Call.written]

section Removal

variable {settings : Settings} {ns name : String} {cluster : Cluster} {status : RecordStatus}

/-- When the cluster stays the milestones of a removal are those of opting out. -/
theorem milestones_of_removal (hstays : ¬ cluster.metadata.deleting) :
    ((removalCourse settings (some cluster)).calls ns status).flatMap
        (fun exchange => exchange.1.milestones) ++
      [.stored (recordKey ns name) .disabled, .released (recordKey ns name)] =
      optOut ns name settings := by
  simp [removalCourse, hstays, withdrawalCourse, cleaningCourse, endCourse, Course.calls,
    Move.calls, Call.milestones, optOut, BundleState.milestone]

theorem phase_of_removal (found : Option Cluster) :
    ((removalCourse settings found).noted status).phase = some .disabled := by
  cases hstays : found.any fun cluster => !cluster.metadata.deleting <;>
    simp [removalCourse, hstays, withdrawalCourse, cleaningCourse, cleanupCourse, endCourse,
      Course.noted, Move.noted]

end Removal

namespace Visit

variable {settings : Settings} {visit : Visit} {ns name : String}

/-- A record that is removed in the ordinary way is only released when all has happened before. -/
theorem reached_of_releases (hheld : visit.HeldBy settings) (hnamed : visit.record.Named ns name)
    (hordinary : visit.Ordinary) (hstays : visit.ClusterStays ns)
    (hreleases : visit.Releases ns name) :
    Milestone.Reached (optOut ns name settings) visit.exchanges := by
  obtain ⟨cared, hcared, hfound⟩ := Dialogue.held_interpret.mp hheld
  obtain ⟨position, response, hmem⟩ := hreleases
  have hmem := changeExchange_mem_of_found hfound hmem
  by_cases hguarded : visit.record.Guarded
  · obtain ⟨conduct, rfl, -⟩ := exists_conduct hnamed hguarded hcared
    obtain ⟨position, response, hending⟩ := conduct.exists_released_of_mem hmem
    obtain ⟨hresult, hgranted⟩ := conduct.result_of_ending (by simp [hending])
    have hplan := plan_eq_disable hordinary (conduct.deleting_of_released _ _ hending)
    obtain ⟨found, hcalls, hstatus⟩ := conduct.calls_of_disable hplan hresult
    rw [Conduct.exchanges, Conduct.carriedOut, hending, List.append_assoc] at hfound
    obtain ⟨made, told, hexchanges, hmade, htold⟩ := Dialogue.found_append.mp hfound
    obtain ⟨_, rfl, hstoring⟩ := found_apiExchange.mp htold
    obtain ⟨_, rfl, hreleasing⟩ := found_apiExchange.mp hstoring
    obtain ⟨_, rfl, rfl⟩ := found_apiExchange.mp hreleasing
    rw [hcalls, found_callExchanges] at hmade
    obtain ⟨read, others, rfl, hread, hothers⟩ := hmade
    obtain ⟨answer, rfl, htells⟩ := Session.held_read_ok hread
    obtain ⟨cluster, rfl, hlives⟩ := hstays answer found (by simp [hexchanges]) htells
    rw [hexchanges, ← milestones_of_removal hlives]
    refine Milestone.Reached.append (.cons_right (reached_of_found ?_ hothers)) ?_
    · exact fun exchange hmem => Course.exists_ok_of_mem_calls hmem
    · refine .cons_right (.cons ⟨_, _, rfl, ?_, hgranted⟩ (.cons ⟨_, _, rfl⟩ .nil))
      rw [report_phase, hstatus]
      exact phase_of_removal (some cluster)
  · rcases held_unguarded hnamed hguarded hcared with ⟨-, hnil⟩ | ⟨-, answer, hone⟩
    · rw [hnil] at hmem
      cases hmem
    · rw [hone, List.mem_singleton] at hmem
      have hsame := congrArg Sigma.fst hmem
      simp only [Care.changeExchange, Care.apiExchange, Inquiry.api.injEq,
        ApiQuestion.request.injEq, ApiRequest.patch.injEq] at hsame
      exact absurd hsame.2.symm (addFinalizer_ne_removeFinalizer _ _)

/-- What is asked in a visit belongs to the calls of the transition or is about the record. -/
theorem belongsTo_of_mem (hheld : visit.HeldBy settings) (hnamed : visit.record.Named ns name)
    {allowed : Call → Prop}
    (hcalls : Act.Asks allowed (transit settings visit.record ns (Transition.plan visit.record)))
    {exchange : Exchange ApiQuestion.Answer} (hmem : exchange ∈ visit.exchanges) :
    exchange.1.BelongsTo allowed (recordKey ns name) := by
  have hasks := asks_reconcile fun other hother => by
    rw [← Option.some.inj (hnamed.ns_eq.symm.trans hother)]
    exact hcalls
  obtain ⟨other, hother, hbelongs⟩ := hasks.of_held hheld exchange hmem
  rw [hnamed.name_eq, Option.getD_some, ← Option.some.inj (hnamed.ns_eq.symm.trans hother)]
    at hbelongs
  exact hbelongs

/-- Nothing is written as a whole for a record that is being removed but the cleanup. -/
theorem eq_cleaner_of_written (hheld : visit.HeldBy settings) (hnamed : visit.record.Named ns name)
    (hdeleting : visit.record.deleting) {exchange : Exchange ApiQuestion.Answer}
    (hmem : exchange ∈ visit.exchanges) {key : ObjectKey}
    (hwritten : exchange.1.written? = some key) : key = ⟨.bundle, some ns, cleanerBundle⟩ := by
  rcases belongsTo_of_mem hheld hnamed (asks_of_deleting hdeleting) hmem with
    ⟨call, hallowed, hinvolves⟩ | habout
  · exact hallowed key (hinvolves.mem_written hwritten)
  · rw [habout.written?_eq_none] at hwritten
    cases hwritten

end Visit

/-- In every run of visits to a record that is never deleted by force nor handed over, and whose
cluster stays: whenever the record is released all has happened that belongs to opting out, and from
the first visit that finds it marked for deletion nothing is brought to the nodes any more. -/
theorem optOut_in_order {settings : Settings} {visits : List Visit} {ns name : String}
    (hheld : ∀ visit ∈ visits, visit.HeldBy settings)
    (hnamed : ∀ visit ∈ visits, visit.record.Named ns name)
    (hordinary : ∀ visit ∈ visits, visit.Ordinary)
    (hstays : ∀ visit ∈ visits, visit.ClusterStays ns)
    (hpermanent : visits.Pairwise fun visit later =>
      visit.record.deleting → later.record.deleting) :
    (∀ visit ∈ visits, visit.Releases ns name →
      Milestone.Reached (optOut ns name settings) visit.exchanges) ∧
    ∀ earlier visit later, visits = earlier ++ visit :: later → visit.record.deleting →
      ∀ other ∈ visit :: later, ∀ exchange ∈ other.exchanges, ∀ key,
        exchange.1.written? = some key → key = ⟨.bundle, some ns, cleanerBundle⟩ := by
  constructor
  · intro visit hmem
    exact Visit.reached_of_releases (hheld visit hmem) (hnamed visit hmem) (hordinary visit hmem)
      (hstays visit hmem)
  · rintro earlier visit later rfl hdeleting other hother exchange hexchange key hwritten
    have hmem : other ∈ earlier ++ visit :: later := List.mem_append_right _ hother
    refine Visit.eq_cleaner_of_written (hheld other hmem) (hnamed other hmem) ?_ hexchange hwritten
    rcases List.mem_cons.mp hother with rfl | hlater
    · exact hdeleting
    · have htail := (List.pairwise_append.mp hpermanent).2.1
      exact (List.pairwise_cons.mp htail).1 other hlater hdeleting

section Sample

/-- A bundle that is healthy as it is now. -/
def NodeBundle.sampleHealthy : Json :=
  Json.object
    [("metadata", Json.object [("name", .str cleanerBundle), ("generation", .int 1)]),
     ("spec", Json.object []),
     ("status", Json.object
       [("observedGeneration", .int 1),
        ("conditions", .arr [Json.object
          [("type", .str NodeBundle.healthyCondition), ("status", .str "True")]])])]

/-- There is no such object. -/
def ApiResponse.sampleAbsent : ApiResponse :=
  ⟨404, Json.object
    [("status", .str "Failure"), ("message", .str ""), ("reason", .str "NotFound"),
     ("code", .int 404)]⟩

/-- An object was removed. -/
def ApiResponse.sampleRemoved : ApiResponse :=
  ⟨200, Json.object [("kind", .str "Status")]⟩

/-- The answers to a removal that succeeds at the first try.  A bundle is only found once it was
published, and as long as it was not removed again. -/
def ApiQuestion.sampleAnswer : (question : ApiQuestion) → Bool → question.Answer × Bool
  | .attempt (.get key), there =>
      if key = ⟨.cluster, none, "tenant"⟩ then
        (some ⟨200, Json.object
          [("metadata", Json.object [("name", .str "tenant")]),
           ("spec", Cluster.sample.spec.toJson)]⟩, there)
      else if there then (some ⟨200, NodeBundle.sampleHealthy⟩, there)
      else (some ApiResponse.sampleAbsent, there)
  | .attempt (.delete _), _ => (some ApiResponse.sampleRemoved, false)
  | .attempt _, _ => (some ⟨200, NodeBundle.sampleHealthy⟩, true)
  | .request _, there => (⟨200, TenantRecord.sampleStored true⟩, there)
  | .pause _, there => (false, there)
  | .now, there => ("", there)

/-- The visit in which the record is removed. -/
def Visit.sample : Visit where
  record := .sample true
  exchanges := (reconcile .standard (.sample true)).exchangesWith ApiQuestion.sampleAnswer false
  outcome := ((reconcile .standard (.sample true)).run ApiQuestion.sampleAnswer false).1

namespace Visit

theorem sample_releases : sample.Releases "tenant" "rsyslog-relp" := by
  have hasked : .request (.patch (recordKey "tenant" "rsyslog-relp") (removeFinalizer 0)) ∈
      sample.exchanges.map (·.1) := by
    decide +kernel
  obtain ⟨⟨question, response⟩, hmem, rfl⟩ := List.mem_map.mp hasked
  exact ⟨0, response, hmem⟩

theorem sample_clusterStays : sample.ClusterStays "tenant" := by
  intro response found hmem htells
  obtain ⟨there, hanswer⟩ := Dialogue.exists_answer_of_mem_exchangesWith hmem
  cases hanswer
  cases found with
  | none =>
      obtain ⟨error, herror, -⟩ := htells
      cases herror
  | some cluster =>
      cases htells
      exact ⟨_, rfl, by decide⟩

end Visit

/-- The record of the sample is released after all that belongs to opting out. -/
theorem sample_opts_out :
    Milestone.Reached (optOut "tenant" "rsyslog-relp" .standard) Visit.sample.exchanges ∧
      ∀ exchange ∈ Visit.sample.exchanges, ∀ key, exchange.1.written? = some key →
        key = ⟨.bundle, some "tenant", cleanerBundle⟩ := by
  have hall := optOut_in_order
    (List.forall_mem_singleton.mpr (Dialogue.held_run ApiQuestion.sampleAnswer _ false :
      Visit.sample.HeldBy .standard))
    (List.forall_mem_singleton.mpr (TenantRecord.sample_named true))
    (List.forall_mem_singleton.mpr ⟨by decide, by decide, by decide⟩)
    (List.forall_mem_singleton.mpr Visit.sample_clusterStays) (List.pairwise_singleton _ _)
  exact ⟨hall.1 _ (List.mem_singleton.mpr rfl) Visit.sample_releases,
    hall.2 [] Visit.sample [] rfl rfl _ (List.mem_singleton.mpr rfl)⟩

end Sample

end LogForwarding
