import LogForwarding.Proofs.Fulfilment

/-!
When forwarding has been brought to the nodes.  A delivery that succeeds has published its artifacts
or has relied on what the status says; it can rely on that as long as no earlier change of the
bundle was lost from the status.
-/

namespace LogForwarding

open Actuator Controller

/-- The bundle that brings a set of artifacts. -/
def BundleSpec.ofArtifacts (set : ArtifactSet) : BundleSpec :=
  ⟨.ofArtifacts set, false⟩

/-- How far a delivery has come: to its end, or to some point before or after the publication. -/
def Delivered (ns : String) (restore : Bool) (set : ArtifactSet) (before : Progress) :
    Except ReconcileError Unit → Progress → Prop
  | .ok (), after =>
      Vouches after.status set ∧
        after.deployment.configuration? ns =
          if restore ∨ ¬ Vouches before.status set then some (.ofArtifacts set)
          else before.deployment.configuration? ns
  | .error _, after =>
      after.status.phase = before.status.phase ∧
        (after.status.appliedDigest = before.status.appliedDigest ∧
            after.deployment.configuration? ns = before.deployment.configuration? ns ∨
          after.status.appliedDigest = some set.digest ∧
            after.deployment.configuration? ns = some (.ofArtifacts set))

theorem deliveryCourse_ensures (settings : Settings) (ns : String) (restore : Bool)
    (config : TenantConfig) (set : ArtifactSet) (before : Progress) :
    Course.Ensures ns (Delivered ns restore set before)
      (deliveryCourse settings ns restore config set) before := by
  have hne := configurationBundle_ne_cleanerBundle
  by_cases hpublish : restore ∨ ¬ Vouches before.status set
  · cases hmonitoring : settings.monitoring.enabled <;>
      simp [deliveryCourse, cleanupCourse, publishCourse, observeCourse, hmonitoring, hpublish,
        Course.Ensures, Move.CanFail, Delivered, Deployment.configuration?, hne,
        ChannelAction.effect, BundleSpec.ofArtifacts]
  · obtain ⟨hrestore, hphase, hdigest⟩ :
        ¬ restore ∧ before.status.phase = some .enabled ∧
          before.status.appliedDigest = some set.digest := by
      rwa [not_or, Decidable.not_not] at hpublish
    cases hmonitoring : settings.monitoring.enabled <;>
      simp [deliveryCourse, cleanupCourse, publishCourse, observeCourse, hmonitoring, Vouches,
        Course.Ensures, Move.CanFail, Delivered, Deployment.configuration?, hne, hdigest, hphase,
        hrestore]

/-- A handover that succeeds is noted, and one that fails leaves the phase and the digest. -/
def HandedOver (before : Progress) : Except ReconcileError Unit → Progress → Prop
  | .ok (), after => after.status.phase = some .migrating
  | .error _, after =>
      after.status.phase = before.status.phase ∧
        after.status.appliedDigest = before.status.appliedDigest

theorem handoverCourse_ensures (settings : Settings) (ns : String) (before : Progress) :
    Course.Ensures ns (HandedOver before) (handoverCourse settings) before := by
  simp [handoverCourse, withdrawalCourse, cleanupCourse, endCourse, Course.Ensures, Move.CanFail,
    HandedOver]

/-- The set of artifacts that an episode has made of the record as it is. -/
def Episode.Synthesizes (episode : Episode) (ns : String) (set : ArtifactSet) : Prop :=
  ∃ config reads rest, episode.calls = reads ++ rest ∧
    Act.Held (prepare episode.record ns) (episode.record.status.getD .initial) reads
      (.ok (config, set)) (episode.record.status.getD .initial)

namespace Controller.Conduct

variable {settings : Settings} {record : TenantRecord} {ns name : String}
  (conduct : Conduct settings record ns name)

/-- An enabling conduct has come to some point of a delivery, or has stopped before it. -/
theorem delivered_of_enable {restore : Bool}
    (hplan : Transition.plan record = .enable restore) (deployment : Deployment) :
    (∃ config set reads rest, conduct.calls = reads ++ rest ∧
      Act.Held (prepare record ns) (record.status.getD .initial) reads (.ok (config, set))
        (record.status.getD .initial) ∧
      Delivered ns restore set (conduct.start deployment) conduct.result
        (conduct.stop deployment)) ∨
    ∃ error, conduct.result = .error error ∧ conduct.stop deployment = conduct.start deployment := by
  rcases conduct.taken deployment with ⟨reads, course, rest, hcalls, htakes, hensured⟩ | hstopped
  · rw [hplan] at htakes
    obtain ⟨config, set, hprepare, rfl⟩ := htakes
    exact Or.inl ⟨config, set, reads, rest, hcalls, hprepare,
      hensured (deliveryCourse_ensures settings ns restore config set _)⟩
  · exact Or.inr hstopped

theorem handedOver_of_migrate (hplan : Transition.plan record = .migrate)
    (deployment : Deployment) :
    HandedOver (conduct.start deployment) conduct.result (conduct.stop deployment) := by
  refine conduct.ensured deployment ?_ fun error => ⟨rfl, rfl⟩
  intro reads course htakes
  rw [hplan] at htakes
  obtain ⟨-, rfl⟩ := htakes
  exact handoverCourse_ensures settings ns _

end Controller.Conduct

/-- What a status vouches for stands in the cluster: a known set with the digest that it tells. -/
def Faithful (known : ArtifactSet → Prop) (ns : String) (progress : Progress) : Prop :=
  progress.status.phase = some .enabled →
    ∀ digest, progress.status.appliedDigest = some digest →
      ∃ set, known set ∧ set.digest = digest ∧
        progress.deployment.configuration? ns = some (.ofArtifacts set)

theorem Faithful.congr {known : ArtifactSet → Prop} {ns : String} {before after : Progress}
    (hfaithful : Faithful known ns before) (hphase : after.status.phase = before.status.phase)
    (hdigest : after.status.appliedDigest = before.status.appliedDigest)
    (hsame : after.deployment.configuration? ns = before.deployment.configuration? ns) :
    Faithful known ns after := by
  rw [Faithful, hphase, hdigest, hsame]
  exact hfaithful

theorem Faithful.of_published {known : ArtifactSet → Prop} {ns : String} {after : Progress}
    {set : ArtifactSet} (hknown : known set)
    (hdigest : after.status.appliedDigest = some set.digest)
    (hset : after.deployment.configuration? ns = some (.ofArtifacts set)) :
    Faithful known ns after := by
  intro _ digest htold
  rw [hdigest] at htold
  exact ⟨set, hknown, Option.some.inj htold, hset⟩

/-- Wherever a delivery stops, what the status then vouches for stands if it stood before. -/
theorem Faithful.of_delivered {known : ArtifactSet → Prop} {ns : String} {restore : Bool}
    {set : ArtifactSet} {before after : Progress} {outcome : Except ReconcileError Unit}
    (hfaithful : Faithful known ns before) (hknown : known set)
    (hdelivered : Delivered ns restore set before outcome after) : Faithful known ns after := by
  cases outcome with
  | ok done =>
      obtain ⟨⟨hphase, hdigest⟩, hset⟩ := hdelivered
      by_cases hpublish : restore ∨ ¬ Vouches before.status set
      · rw [if_pos hpublish] at hset
        exact of_published hknown hdigest hset
      · rw [if_neg hpublish] at hset
        rw [not_or, Decidable.not_not] at hpublish
        obtain ⟨-, hphase', hdigest'⟩ := hpublish
        exact hfaithful.congr (hphase.trans hphase'.symm) (hdigest.trans hdigest'.symm) hset
  | error error =>
      obtain ⟨hphase, ⟨hdigest, hsame⟩ | ⟨hdigest, hset⟩⟩ := hdelivered
      · exact hfaithful.congr hphase hdigest hsame
      · exact of_published hknown hdigest hset

/-- The status accounts for what became of the configuration: nothing, or it was stored, and in the
case of a handover it was stored as a success. -/
def Episode.Accounted (episode : Episode) (ns : String) : Prop :=
  episode.after.deployment.configuration? ns = episode.before.deployment.configuration? ns ∨
    episode.Stores ∧ (Transition.plan episode.record = .migrate → episode.Succeeds)

theorem plan_eq_of_not_deleting {record : TenantRecord} (hdeleting : ¬ record.deleting) :
    (∃ restore, Transition.plan record = .enable restore) ∨
      Transition.plan record = .migrate ∨ Transition.plan record = .retain := by
  rw [Transition.plan, if_neg hdeleting]
  split
  · split
    · exact Or.inr (Or.inr rfl)
    · exact Or.inr (Or.inl rfl)
  · exact Or.inl ⟨true, rfl⟩
  · exact Or.inl ⟨false, rfl⟩

/-- The status that a conduct leaves is faithful if it was, unless a handover has failed after it has
changed the configuration. -/
theorem Controller.Conduct.faithful_stop {settings : Settings} {record : TenantRecord}
    {ns name : String} (conduct : Conduct settings record ns name) {deployment : Deployment}
    {known : ArtifactSet → Prop} (hdeleting : ¬ record.deleting)
    (hknown : ∀ config set reads rest, conduct.calls = reads ++ rest →
      Act.Held (prepare record ns) (record.status.getD .initial) reads (.ok (config, set))
        (record.status.getD .initial) → known set)
    (hhandover : Transition.plan record = .migrate → conduct.result = .ok () ∨
      (conduct.stop deployment).deployment.configuration? ns = deployment.configuration? ns)
    (hfaithful : Faithful known ns (conduct.start deployment)) :
    Faithful known ns (conduct.stop deployment) := by
  rcases plan_eq_of_not_deleting hdeleting with ⟨restore, hplan⟩ | hplan | hplan
  · rcases conduct.delivered_of_enable hplan deployment with
      ⟨config, set, reads, rest, hcalls, hprepare, hdelivered⟩ | ⟨error, -, hsame⟩
    · exact hfaithful.of_delivered (hknown config set reads rest hcalls hprepare) hdelivered
    · rw [hsame]
      exact hfaithful
  · have hover := conduct.handedOver_of_migrate hplan deployment
    cases hresult : conduct.result with
    | ok done =>
        rw [hresult] at hover
        intro hphase
        rw [hover] at hphase
        cases hphase
    | error error =>
        rw [hresult] at hover
        rcases hhandover hplan with hok | hsame
        · rw [hresult] at hok
          cases hok
        · exact hfaithful.congr hover.1 hover.2 hsame
  · rw [(conduct.stop_of_retain hplan deployment).2]
    exact hfaithful

/-- An episode that is accounted for leaves a faithful status. -/
theorem Episode.faithful_after {settings : Settings} {episode : Episode} {ns name : String}
    (hheld : episode.HeldBy settings) (hnamed : episode.record.Named ns name)
    {known : ArtifactSet → Prop} (hknown : ∀ set, episode.Synthesizes ns set → known set)
    (haccounted : episode.Accounted ns) (hdeleting : ¬ episode.record.deleting)
    (hfaithful : Faithful known ns
      ⟨episode.record.status.getD .initial, episode.before.deployment⟩)
    {kept : TenantRecord} (hkept : kept.StoredAs episode.after.record) :
    Faithful known ns ⟨kept.status.getD .initial, episode.after.deployment⟩ := by
  by_cases hguarded : episode.record.Guarded
  · obtain ⟨conduct, hexchanges, hsuccess⟩ := exists_conduct hnamed hguarded hheld.2
    obtain ⟨hdeployment, found, hfound, -, hleaves, -⟩ := conduct.after_exchanges hheld.1
    rw [← hexchanges] at hdeployment hfound
    obtain rfl := hkept.unique hfound
    have hstop : conduct.stop episode.before.deployment =
        ⟨conduct.status, episode.after.deployment⟩ := by
      rw [Conduct.stop, ← hdeployment, Episode.after]
    have hcalls := Episode.calls_of_conduct conduct hexchanges
    by_cases hgranted : Granted conduct.response
    · have hstopped : Faithful known ns (conduct.stop episode.before.deployment) := by
        refine conduct.faithful_stop hdeleting ?_ ?_ hfaithful
        · intro config set reads rest hsplit hprepare
          exact hknown set ⟨config, reads, rest, hcalls.trans hsplit, hprepare⟩
        · intro hplan
          rcases haccounted with hsame | ⟨-, hsucceeds⟩
          · rw [hstop]
            exact Or.inr hsame
          · exact Or.inl (hsuccess (hsucceeds hplan)).1
      obtain ⟨status, hstatus, hphase, hdigest, -⟩ := hleaves.of_granted hgranted
      rw [hstop] at hstopped
      rw [hstatus]
      exact hstopped.congr hphase hdigest rfl
    · have hsame : episode.after.deployment.configuration? ns =
          episode.before.deployment.configuration? ns := by
        rcases haccounted with hsame | ⟨hstores, -⟩
        · exact hsame
        · exact absurd ((Episode.stores_iff_granted conduct hexchanges).mp hstores) hgranted
      rw [hleaves.of_not_granted hgranted]
      exact hfaithful.congr rfl rfl hsame
  · obtain ⟨hsame, found, hfound, -, hstatus⟩ := Episode.after_of_unguarded hheld hnamed hguarded
    obtain rfl := hkept.unique hfound
    rw [hstatus, hsame]
    exact hfaithful

/-- The record that is kept has this name, and is faithful unless it is being deleted. -/
def World.Faithful (world : World) (known : ArtifactSet → Prop) (ns name : String) : Prop :=
  ∃ record : TenantRecord, record.StoredAs world.record ∧ record.Named ns name ∧
    (¬ record.deleting →
      LogForwarding.Faithful known ns ⟨record.status.getD .initial, world.deployment⟩)

/-- In a run whose episodes are all accounted for the record is faithful all the time. -/
theorem Run.faithful {settings : Settings} {start world : World} {episodes : List Episode}
    {ns name : String} (hrun : Run settings start episodes world) (hfresh : start.Fresh ns name)
    (haccounted : ∀ episode ∈ episodes, episode.Accounted ns) :
    world.Faithful (fun set => ∃ episode ∈ episodes, episode.Synthesizes ns set) ns name := by
  refine hrun.invariant (World.Faithful · _ ns name) ?_ ?_ ?_
  · obtain ⟨record, hstored, hnamed, hnone⟩ := hfresh
    refine ⟨record, hstored, hnamed, ?_⟩
    intro _ hphase
    rw [hnone] at hphase
    cases hphase
  · rintro world edited ⟨record, hstored, hnamed, hfaithful⟩
      ⟨old, new, hold, hnew, hns, hname, -, hstatus, hdeleting⟩
    obtain rfl := hstored.unique hold
    refine ⟨new, hnew, ⟨hns.trans hnamed.ns_eq, hname.trans hnamed.name_eq, hnamed.name_ne⟩, ?_⟩
    intro hnot
    rw [hstatus]
    exact hfaithful fun hyes => hnot (hdeleting hyes)
  · rintro episode hmem hheld ⟨record, hstored, hnamed, hfaithful⟩
    obtain rfl := hstored.unique hheld.1
    obtain ⟨kept, hkept, hsame⟩ := Episode.exists_after hheld hnamed
    refine ⟨kept, hkept, hsame.named hnamed, ?_⟩
    intro hnot
    have hdeleting : ¬ episode.record.deleting := by
      rw [← hsame.deleting_eq]
      exact hnot
    exact Episode.faithful_after hheld hnamed (fun set hset => ⟨episode, hmem, hset⟩)
      (haccounted episode hmem) hdeleting (hfaithful hdeleting) hkept

/-- No two of the sets of these episodes have the same digest. -/
def NoCollision (episodes : List Episode) (ns : String) : Prop :=
  ∀ set other, (∃ episode ∈ episodes, episode.Synthesizes ns set) →
    (∃ episode ∈ episodes, episode.Synthesizes ns other) → set.digest = other.digest → set = other

/-- A bundle is there that brings a set of artifacts, and takes them away when it goes. -/
def World.Delivers (world : World) (ns : String) (set : ArtifactSet) : Prop :=
  world.deployment.configuration? ns = some (.ofArtifacts set)

/-- When a delivery succeeds, the digest of what the record asks for is stored, and a bundle that
brings it is there, unless the delivery has relied on a status for which no such bundle was there.
It relies on the status when this is no restore and the status tells of that digest.  Without such a
status there is none as long as every change of the configuration was accounted for. -/
theorem succeeded_delivery_delivers_iff {settings : Settings} {start world : World}
    {earlier later : List Episode} {episode : Episode} {ns name : String} {restore : Bool}
    (hfresh : start.Fresh ns name)
    (hrun : Run settings start (earlier ++ episode :: later) world)
    (hguarded : episode.record.Guarded)
    (hplan : Transition.plan episode.record = .enable restore) (hsucceeds : episode.Succeeds) :
    ∃ (set : ArtifactSet) (kept : TenantRecord) (status : RecordStatus),
      episode.Synthesizes ns set ∧ kept.StoredAs episode.after.record ∧
      kept.status = some status ∧ Vouches status set ∧
      (episode.after.Delivers ns set ↔
        restore ∨ ¬ Vouches (episode.record.status.getD .initial) set ∨
          episode.before.Delivers ns set) ∧
      ((∀ other ∈ earlier, other.Accounted ns) → NoCollision (earlier ++ [episode]) ns →
        episode.after.Delivers ns set) := by
  obtain ⟨hbefore, hheld⟩ := hrun.before_of_mem rfl
  obtain ⟨record, hstored, hnamed⟩ := hbefore.named hfresh
  obtain rfl := hstored.unique hheld.1
  have hdeleting : ¬ episode.record.deleting := fun hyes =>
    plan_ne_enable_of_deleting hyes restore hplan
  obtain ⟨conduct, hexchanges, hsuccess⟩ := exists_conduct hnamed hguarded hheld.2
  obtain ⟨hresult, hgranted⟩ := hsuccess hsucceeds
  obtain ⟨hdeployment, kept, hkept, -, hleaves, -⟩ := conduct.after_exchanges hheld.1
  rw [← hexchanges] at hdeployment hkept
  obtain ⟨status, hstatus, hphase, hdigest, -⟩ := hleaves.of_granted hgranted
  rcases conduct.delivered_of_enable hplan episode.before.deployment with
    ⟨config, set, reads, rest, hcalls, hprepare, hdelivered⟩ | ⟨error, herror, -⟩
  · rw [hresult] at hdelivered
    obtain ⟨⟨hphase', hdigest'⟩, hset⟩ := hdelivered
    have hset : episode.after.deployment.configuration? ns =
        if restore ∨ ¬ Vouches (episode.record.status.getD .initial) set then
          some (.ofArtifacts set)
        else episode.before.deployment.configuration? ns := by
      rw [Episode.after, hdeployment]
      exact hset
    have hsynthesizes : episode.Synthesizes ns set :=
      ⟨config, reads, rest, (Episode.calls_of_conduct conduct hexchanges).trans hcalls, hprepare⟩
    refine ⟨set, kept, status, hsynthesizes, hkept, hstatus,
      ⟨hphase.trans hphase', hdigest.trans hdigest'⟩, ?_, ?_⟩
    · rw [World.Delivers, World.Delivers, hset, ← or_assoc]
      by_cases hpublish : restore ∨ ¬ Vouches (episode.record.status.getD .initial) set
      · rw [if_pos hpublish]
        exact ⟨fun _ => Or.inl hpublish, fun _ => rfl⟩
      · rw [if_neg hpublish]
        exact ⟨Or.inr, fun hor => hor.resolve_left hpublish⟩
    · intro haccounted hinjective
      rw [World.Delivers, hset]
      by_cases hpublish : restore ∨ ¬ Vouches (episode.record.status.getD .initial) set
      · exact if_pos hpublish
      · -- What the status vouches for was known before, so it is this very set.
        rw [if_neg hpublish]
        rw [not_or, Decidable.not_not] at hpublish
        obtain ⟨before, hbeforeStored, -, hfaithful⟩ := hbefore.faithful hfresh haccounted
        obtain rfl := hheld.1.unique hbeforeStored
        obtain ⟨other, ⟨source, hsource, hother⟩, hsame, hstands⟩ :=
          hfaithful hdeleting hpublish.2.1 set.digest hpublish.2.2
        have hequal : other = set :=
          hinjective other set ⟨source, List.mem_append_left _ hsource, hother⟩
            ⟨episode, by simp, hsynthesizes⟩ hsame
        rw [← hequal]
        exact hstands
  · rw [hresult] at herror
    cases herror

theorem Episode.sample_succeeds : (Episode.sample false).Succeeds :=
  unhindered_succeeds (TenantRecord.sample_storedAs false) (TenantRecord.sample_named false)
    (by decide) rfl (tenantConfig_eq_sampleGrave rfl) TenantConfig.sampleGrave_valid

/-- The first delivery, of which the status says nothing yet, brings the artifacts to the nodes. -/
theorem sample_delivers :
    ∃ (set : ArtifactSet) (kept : TenantRecord) (status : RecordStatus),
      (Episode.sample false).Synthesizes "tenant" set ∧
      kept.StoredAs (Episode.sample false).after.record ∧
      kept.status = some status ∧ Vouches status set ∧
      (Episode.sample false).after.Delivers "tenant" set := by
  obtain ⟨set, kept, status, hset, hkept, hstatus, hvouches, hiff, -⟩ :=
    succeeded_delivery_delivers_iff (Episode.sample_fresh false) (Run.sample false)
      (by decide) rfl Episode.sample_succeeds
  exact ⟨set, kept, status, hset, hkept, hstatus, hvouches,
    hiff.mpr (Or.inr (Or.inl fun hvouches => by cases hvouches.1))⟩

end LogForwarding
