import LogForwarding.Proofs.Preparation

/-!
The course that each transition takes: a list of calls and of notes in the status, which is known
once the tenant document and the cluster were read.  A transition that succeeds comes to the end of
its course, and one that fails stops at a call.
-/

namespace LogForwarding

/-- What is wanted of the configuration of a namespace. -/
def Deployment.configuration? (deployment : Deployment) (ns : String) : Option BundleSpec :=
  deployment.bundle? ns Actuator.configurationBundle

/-- One move of a transition: a call without a result, or a note in the status.  A call on a bundle
is only made when the status asks for it. -/
inductive Move where
  | channel (needed : RecordStatus → Bool) (bundle : String) (action : ChannelAction)
  | monitoring (action : MonitoringAction)
  | note (change : RecordStatus → RecordStatus)

/-- The status that a transition has noted so far, and what stands in the cluster. -/
structure Progress where
  status : RecordStatus
  deployment : Deployment

/-- What a transition is about to do in a namespace. -/
abbrev Course := List Move

namespace Move

/-- A call on a bundle that is made in any case. -/
abbrev always (bundle : String) (action : ChannelAction) : Move :=
  .channel (fun _ => true) bundle action

/-- A move as a computation. -/
def act (ns : String) : Move → Act Unit
  | .channel needed bundle action => do
      if needed (← get) then Actuator.call (.channel ns bundle action)
  | .monitoring action => Actuator.call (.monitoring ns action)
  | .note change => modify change

theorem act_channel_of_needed {needed : RecordStatus → Bool} {status : RecordStatus}
    (hneeded : needed status) (ns bundle : String) (action : ChannelAction) :
    (Move.channel needed bundle action).act ns status =
      Actuator.call (.channel ns bundle action) status := by
  exact congrFun (if_pos hneeded) status

theorem act_channel_of_not_needed {needed : RecordStatus → Bool} {status : RecordStatus}
    (hneeded : ¬ needed status) (ns bundle : String) (action : ChannelAction) :
    (Move.channel needed bundle action).act ns status = (pure () : Act Unit) status := by
  exact congrFun (if_neg hneeded) status

/-- Whether a move can fail. -/
def CanFail (status : RecordStatus) : Move → Prop
  | .channel needed _ _ => needed status
  | .monitoring _ => True
  | .note _ => False

/-- What comes of a move that succeeds. -/
def apply (ns : String) : Move → Progress → Progress
  | .channel needed bundle action, ⟨status, deployment⟩ =>
      if needed status then
        ⟨status, deployment.setBundle ns bundle (action.effect (deployment.bundle? ns bundle))⟩
      else ⟨status, deployment⟩
  | .monitoring action, ⟨status, deployment⟩ =>
      ⟨status, deployment.setObservers ns (action.effect (deployment.observer? ns))⟩
  | .note change, ⟨status, deployment⟩ => ⟨change status, deployment⟩

section Apply

variable (ns : String) (progress : Progress) (needed : RecordStatus → Bool) (bundle : String)
  (action : ChannelAction) (watched : MonitoringAction) (change : RecordStatus → RecordStatus)

@[simp] theorem apply_note_status :
    ((Move.note change).apply ns progress).status = change progress.status := rfl

@[simp] theorem apply_note_deployment :
    ((Move.note change).apply ns progress).deployment = progress.deployment := rfl

@[simp] theorem apply_monitoring_status :
    ((Move.monitoring watched).apply ns progress).status = progress.status := rfl

@[simp] theorem apply_monitoring_bundle? :
    ((Move.monitoring watched).apply ns progress).deployment.bundle? =
      progress.deployment.bundle? := rfl

@[simp] theorem apply_monitoring_observer? :
    ((Move.monitoring watched).apply ns progress).deployment.observer? ns =
      watched.effect (progress.deployment.observer? ns) := by
  simp [apply]

@[simp] theorem apply_channel_status :
    ((Move.channel needed bundle action).apply ns progress).status = progress.status := by
  rw [apply]
  split <;> rfl

@[simp] theorem apply_channel_observer? :
    ((Move.channel needed bundle action).apply ns progress).deployment.observer? =
      progress.deployment.observer? := by
  rw [apply]
  split <;> rfl

/-- A call on a bundle has its effect on that bundle, if it is made. -/
@[simp] theorem apply_channel_bundle? (other : String) :
    ((Move.channel needed bundle action).apply ns progress).deployment.bundle? ns other =
      if needed progress.status ∧ other = bundle then
        action.effect (progress.deployment.bundle? ns bundle)
      else progress.deployment.bundle? ns other := by
  rw [apply]
  by_cases hneeded : needed progress.status <;> simp [hneeded]

end Apply

/-- The call of a move. -/
def call? (ns : String) : Move → Option Call
  | .channel _ bundle action => some (.channel ns bundle action)
  | .monitoring action => some (.monitoring ns action)
  | .note _ => none

/-- The calls of a move that succeeds. -/
def calls (ns : String) (status : RecordStatus) : Move → List (Exchange Call.Answer)
  | .channel needed bundle action =>
      if needed status then [⟨.channel ns bundle action, .ok ()⟩] else []
  | .monitoring action => [⟨.monitoring ns action, .ok ()⟩]
  | .note _ => []

/-- What is noted in the status by a move. -/
def noted (status : RecordStatus) : Move → RecordStatus
  | .note change => change status
  | _ => status

theorem held_act_ok {ns : String} {move : Move} {before after : RecordStatus}
    {made : List (Exchange Call.Answer)} (hheld : Act.Held (move.act ns) before made (.ok ()) after) :
    made = move.calls ns before ∧ after = move.noted before := by
  cases move with
  | note change =>
      obtain ⟨rfl, -, rfl⟩ := Act.held_modify.mp hheld
      exact ⟨rfl, rfl⟩
  | monitoring action => exact Act.held_call_ok.mp hheld
  | channel needed bundle action =>
      rw [Act.Held] at hheld
      rw [calls]
      by_cases hneeded : needed before
      · rw [act_channel_of_needed hneeded] at hheld
        rw [if_pos hneeded]
        exact Act.held_call_ok.mp hheld
      · rw [act_channel_of_not_needed hneeded] at hheld
        rw [if_neg hneeded]
        obtain ⟨rfl, -, rfl⟩ := Act.held_pure.mp hheld
        exact ⟨rfl, rfl⟩

theorem asks {allowed : Call → Prop} {ns : String} {move : Move}
    (hallowed : ∀ call, move.call? ns = some call → allowed call) :
    Act.Asks allowed (move.act ns) := by
  cases move with
  | note change => exact fun _ => trivial
  | monitoring action => exact Act.asks_call (hallowed _ rfl)
  | channel needed bundle action =>
      intro status
      by_cases hneeded : needed status
      · rw [act_channel_of_needed hneeded]
        exact Act.asks_call (hallowed _ rfl) status
      · rw [act_channel_of_not_needed hneeded]
        trivial

/-- A move that does not succeed changes nothing. -/
theorem act_ensures {ns : String} {move : Move} {progress : Progress}
    (wanted : Except ReconcileError Unit → Progress → Prop)
    (hfail : move.CanFail progress.status → ∀ error, wanted (.error error) progress)
    (hdone : wanted (.ok ()) (move.apply ns progress)) :
    Act.Ensures Call.effect (move.act ns)
      (fun outcome status deployment => wanted outcome ⟨status, deployment⟩) progress.status
      progress.deployment := by
  obtain ⟨status, deployment⟩ := progress
  cases move with
  | note change => exact hdone
  | monitoring action =>
      refine Act.ensures_call.mpr fun reply => ?_
      cases reply with
      | ok result => exact hdone
      | failed error => exact hfail trivial _
      | cancelled => exact hfail trivial _
  | channel needed bundle action =>
      rw [act, Act.ensures_bind, Act.ensures_get]
      by_cases hneeded : needed status
      · simp only [apply, hneeded, ↓reduceIte] at hdone ⊢
        refine Act.ensures_call.mpr fun reply => ?_
        cases reply with
        | ok result => exact hdone
        | failed error => exact hfail hneeded _
        | cancelled => exact hfail hneeded _
      · simp only [apply, hneeded, Bool.false_eq_true, ↓reduceIte] at hdone ⊢
        exact hdone

end Move

namespace Course

/-- A course as a computation. -/
def act (ns : String) : Course → Act Unit
  | [] => return ()
  | move :: rest => do
      move.act ns
      act ns rest

theorem act_append (ns : String) (first rest : Course) :
    act ns (first ++ rest) = (do first.act ns; rest.act ns) := by
  induction first with
  | nil => exact (pure_bind () fun _ => rest.act ns).symm
  | cons move others ih =>
      show (do move.act ns; act ns (others ++ rest)) = _
      rw [ih]
      exact (bind_assoc _ _ _).symm

/-- The calls of a course that succeeds. -/
def calls (ns : String) : Course → RecordStatus → List (Exchange Call.Answer)
  | [], _ => []
  | move :: rest, status => move.calls ns status ++ calls ns rest (move.noted status)

/-- What is noted in the status by a course. -/
def noted : Course → RecordStatus → RecordStatus
  | [], status => status
  | move :: rest, status => noted rest (move.noted status)

theorem held_act_ok {ns : String} {course : Course} {before after : RecordStatus}
    {made : List (Exchange Call.Answer)}
    (hheld : Act.Held (course.act ns) before made (.ok ()) after) :
    made = course.calls ns before ∧ after = course.noted before := by
  induction course generalizing before made with
  | nil =>
      obtain ⟨rfl, -, rfl⟩ := Act.held_pure.mp hheld
      exact ⟨rfl, rfl⟩
  | cons move rest ih =>
      obtain ⟨first, others, done, middle, rfl, hfirst, hothers⟩ := Act.held_bind_ok.mp hheld
      obtain ⟨rfl, rfl⟩ := Move.held_act_ok hfirst
      obtain ⟨rfl, rfl⟩ := ih hothers
      exact ⟨rfl, rfl⟩

theorem exists_ok_of_mem_calls {ns : String} {course : Course} {status : RecordStatus}
    {exchange : Exchange Call.Answer} (hmem : exchange ∈ course.calls ns status) :
    ∃ result, exchange.2 = .ok result := by
  induction course generalizing status with
  | nil => cases hmem
  | cons move rest ih =>
      rcases List.mem_append.mp hmem with hmem | hmem
      · cases move with
        | note change => cases hmem
        | monitoring action =>
            rw [List.mem_singleton.mp hmem]
            exact ⟨(), rfl⟩
        | channel needed bundle action =>
            rw [Move.calls] at hmem
            split at hmem
            · rw [List.mem_singleton.mp hmem]
              exact ⟨(), rfl⟩
            · cases hmem
      · exact ih hmem

/-- A course makes the calls of its moves only. -/
theorem asks {allowed : Call → Prop} {ns : String} {course : Course}
    (hallowed : ∀ move ∈ course, ∀ call, move.call? ns = some call → allowed call) :
    Act.Asks allowed (course.act ns) := by
  induction course with
  | nil => exact fun _ => trivial
  | cons move rest ih =>
      refine Act.Asks.bind (Move.asks (hallowed move List.mem_cons_self)) fun _ => ih ?_
      exact fun other hmem => hallowed other (List.mem_cons_of_mem move hmem)

/-- Wherever a course stops, the outcome is as wanted. -/
def Ensures (ns : String) (wanted : Except ReconcileError Unit → Progress → Prop) :
    Course → Progress → Prop
  | [], progress => wanted (.ok ()) progress
  | move :: rest, progress =>
      (move.CanFail progress.status → ∀ error, wanted (.error error) progress) ∧
        Ensures ns wanted rest (move.apply ns progress)

/-- What a course ensures is ensured by the computation. -/
theorem act_ensures {ns : String} {wanted : Except ReconcileError Unit → Progress → Prop}
    {course : Course} {progress : Progress} (hensures : course.Ensures ns wanted progress) :
    Act.Ensures Call.effect (course.act ns)
      (fun outcome status deployment => wanted outcome ⟨status, deployment⟩) progress.status
      progress.deployment := by
  induction course generalizing progress with
  | nil => exact hensures
  | cons move rest ih =>
      obtain ⟨hfail, hrest⟩ := hensures
      rw [act, Act.ensures_bind]
      let after (outcome : Except ReconcileError Unit) (progress : Progress) : Prop :=
        match outcome with
        | .ok () => Ensures ns wanted rest progress
        | .error error => wanted (.error error) progress
      refine Act.Ensures.mono (Move.act_ensures after hfail hrest) ?_
      intro outcome status deployment hwanted
      cases outcome with
      | ok result => exact ih hwanted
      | error error => exact hwanted

/-- What every move of a course keeps is kept wherever it stops. -/
theorem ensures_of_kept {ns : String} {kept : Progress → Prop} {course : Course}
    (hmoves : ∀ move ∈ course, ∀ progress, kept progress → kept (move.apply ns progress))
    {progress : Progress} (hkept : kept progress) :
    Ensures ns (fun _ => kept) course progress := by
  induction course generalizing progress with
  | nil => exact hkept
  | cons move rest ih =>
      refine ⟨fun _ _ => hkept, ih ?_ (hmoves move List.mem_cons_self progress hkept)⟩
      intro other hmem
      exact hmoves other (List.mem_cons_of_mem move hmem)

/-- What a course ensures holds however it was taken. -/
theorem Ensures.of_held {ns : String} {wanted : Except ReconcileError Unit → Progress → Prop}
    {course : Course} {progress : Progress} (hensures : Ensures ns wanted course progress)
    {calls : List (Exchange Call.Answer)} {outcome : Except ReconcileError Unit}
    {after : RecordStatus} (hheld : Act.Held (course.act ns) progress.status calls outcome after) :
    wanted outcome ⟨after, Dialogue.after Call.effect calls progress.deployment⟩ :=
  Act.ensures_iff.mp (act_ensures hensures) calls outcome after hheld

end Course

namespace Actuator

theorem configurationBundle_ne_cleanerBundle : configurationBundle ≠ cleanerBundle := by
  decide

/-- The cleanup bundle is withdrawn if there may be one. -/
def cleanupCourse : Course :=
  [.channel (·.cleanupPresent) cleanerBundle .withdraw,
   .note fun status => { status with cleanupPresent := false }]

/-- A status says that a set of artifacts has been brought to the nodes. -/
def Vouches (status : RecordStatus) (set : ArtifactSet) : Prop :=
  status.phase = some .enabled ∧ status.appliedDigest = some set.digest

instance (status : RecordStatus) (set : ArtifactSet) : Decidable (Vouches status set) :=
  inferInstanceAs (Decidable (_ ∧ _))

@[simp] theorem vouches_cleanup {status : RecordStatus} {set : ArtifactSet} {present : Bool} :
    Vouches { status with cleanupPresent := present } set ↔ Vouches status set := Iff.rfl

@[simp] theorem vouches_delivered {generation : Option Int64} {set : ArtifactSet} {present : Bool}
    {operation : Option LastOperation} {error : Option LastError} :
    Vouches ⟨some .enabled, generation, some set.digest, present, operation, error⟩ set :=
  ⟨rfl, rfl⟩

/-- The artifacts are published unless the status says that they are there already. -/
def publishCourse (restore : Bool) (set : ArtifactSet) : Course :=
  [.channel (fun status => restore ∨ ¬ Vouches status set)
    configurationBundle (.publish (.ofArtifacts set)),
   .note fun status => { status with appliedDigest := some set.digest }]

/-- The objects by which the tenant is observed are written if they are wanted. -/
def observeCourse (settings : Settings) (ns : String) (config : TenantConfig) : Course :=
  if settings.monitoring.enabled then
    [.monitoring (.apply (Monitoring.objects ns config.auditEnabled settings.monitoring))]
  else []

/-- The configuration is withdrawn, and is waited for to be gone. -/
def withdrawalCourse (settings : Settings) : Course :=
  [.always configurationBundle .withdraw,
   .always configurationBundle (.await .deleted settings.cleanup.deletedTimeout)]

/-- The nodes are cleaned. -/
def cleaningCourse (settings : Settings) : Course :=
  [.always cleanerBundle (.publish (.ofManifests (Cleanup.manifests settings.images))),
   .note fun status => { status with cleanupPresent := true },
   .always cleanerBundle (.await .healthy settings.cleanup.healthyTimeout),
   .always cleanerBundle .withdraw,
   .always cleanerBundle (.await .deleted settings.cleanup.deletedTimeout),
   .note fun status => { status with cleanupPresent := false }]

/-- The objects by which the tenant is observed are removed, and the phase is noted. -/
def endCourse (phase : Phase) : Course :=
  [.monitoring .remove, .note fun status => { status with phase := some phase }]

/-- Forwarding is brought to the nodes. -/
def deliveryCourse (settings : Settings) (ns : String) (restore : Bool) (config : TenantConfig)
    (set : ArtifactSet) : Course :=
  cleanupCourse ++ publishCourse restore set ++ observeCourse settings ns config ++
    [.note fun status => { status with phase := some .enabled }]

/-- Forwarding is withdrawn, and the nodes are cleaned if the cluster is there to stay. -/
def removalCourse (settings : Settings) (found : Option Cluster) : Course :=
  withdrawalCourse settings ++ [.note fun status => { status with appliedDigest := none }] ++
    (if found.any fun cluster => !cluster.metadata.deleting then cleaningCourse settings
      else cleanupCourse) ++ endCourse .disabled

/-- Forwarding is withdrawn, and the nodes are not cleaned. -/
def forceCourse : Course :=
  [.always configurationBundle .withdraw,
   .note fun status => { status with appliedDigest := none },
   .always cleanerBundle .withdraw,
   .note fun status => { status with cleanupPresent := false }] ++ endCourse .forceDeleted

/-- The nodes are handed over as they are. -/
def handoverCourse (settings : Settings) : Course :=
  .always configurationBundle .keep :: withdrawalCourse settings ++ cleanupCourse ++
    endCourse .migrating

variable (settings : Settings) (ns : String)

theorem withdrawCleanup_eq : withdrawCleanup ns = cleanupCourse.act ns := by
  funext status
  obtain ⟨phase, generation, digest, present, operation, error⟩ := status
  cases present <;> rfl

theorem cleanNodes_eq : cleanNodes settings ns = (cleaningCourse settings).act ns := rfl

theorem forceDelete_eq : forceDelete ns = forceCourse.act ns := rfl

theorem migrate_eq : migrate settings ns = (handoverCourse settings).act ns := by
  simp only [migrate, withdrawCleanup_eq, handoverCourse, Course.act_append, Course.act,
    withdrawalCourse, endCourse, List.cons_append, List.nil_append]
  rfl

/-- Forwarding is removed once the cluster was read. -/
theorem disable_eq :
    disable settings ns = (do
      let found ← call (.cluster ns)
      (removalCourse settings found).act ns) := by
  rw [disable]
  congr 1
  funext found
  simp only [withdrawCleanup_eq, cleanNodes_eq, removalCourse, withdrawalCourse, endCourse,
    Course.act_append, Course.act, bind_assoc, pure_bind]
  split
  · rfl
  · rfl

/-- What is not published is there already, so that nothing has to be noted. -/
theorem publish_eq (restore : Bool) (set : ArtifactSet) (next : Act Unit) :
    (do let status ← get
        if restore ∨ status.phase ≠ some .enabled ∨ status.appliedDigest ≠ some set.digest then
          publish ns configurationBundle (.ofArtifacts set)
          setDigest (some set.digest)
          next
        else next) = (do
      (publishCourse restore set).act ns
      next) := by
  funext status
  have hiff : restore ∨ status.phase ≠ some .enabled ∨ status.appliedDigest ≠ some set.digest ↔
      restore ∨ ¬ Vouches status set := by
    rw [Vouches, Decidable.not_and_iff_or_not]
  change (if _ then _ else _ : Act Unit) status = _
  by_cases hneeded : restore ∨ ¬ Vouches status set
  · rw [if_pos (hiff.mpr hneeded), publishCourse, Course.act, bind_assoc, Act.run_bind,
      Act.run_bind, Move.act_channel_of_needed (decide_eq_true hneeded)]
    rfl
  · have hdigest : status.appliedDigest = some set.digest := by
      rw [not_or, Decidable.not_not] at hneeded
      exact hneeded.2.2
    rw [if_neg (fun hpublish => hneeded (hiff.mp hpublish)), publishCourse, Course.act, bind_assoc,
      Act.run_bind, Move.act_channel_of_not_needed (by simpa using hneeded)]
    show next status = next { status with appliedDigest := some set.digest }
    rw [← hdigest]

/-- Forwarding is brought to the nodes once the artifacts are known. -/
theorem enable_eq (record : TenantRecord) (restore : Bool) :
    enable settings record ns restore = (do
      let (config, set) ← prepare record ns
      (deliveryCourse settings ns restore config set).act ns) := by
  rw [enable]
  congr 1
  funext prepared
  obtain ⟨config, set⟩ := prepared
  have hobserve : (if settings.monitoring.enabled then do
        call (.monitoring ns
          (.apply (Monitoring.objects ns config.auditEnabled settings.monitoring)))
        setPhase .enabled
      else setPhase .enabled) = (do
        (observeCourse settings ns config).act ns
        Course.act ns [.note fun status => { status with phase := some .enabled }]) := by
    rw [observeCourse]
    split
    · simp only [Course.act, bind_assoc, pure_bind]
      rfl
    · rfl
  simp only [withdrawCleanup_eq, deliveryCourse, Course.act_append, bind_assoc]
  rw [← hobserve, ← publish_eq]

/-- The course of a transition after some reads. -/
def Takes (settings : Settings) (record : TenantRecord) (ns : String) (status : RecordStatus)
    (reads : List (Exchange Call.Answer)) : Transition → Course → Prop
  | .enable restore, course => ∃ config set,
      Act.Held (prepare record ns) status reads (.ok (config, set)) status ∧
        course = deliveryCourse settings ns restore config set
  | .disable, course => ∃ found : Option Cluster, reads = [⟨.cluster ns, .ok found⟩] ∧
      course = removalCourse settings found
  | .forceDelete, course => reads = [] ∧ course = forceCourse
  | .migrate, course => reads = [] ∧ course = handoverCourse settings
  | .retain, course => reads = [] ∧ course = []

/-- A transition takes a course after it has read what it needs, or fails while it reads. -/
theorem held_transit {settings : Settings} {record : TenantRecord} {ns : String}
    {transition : Transition} {before after : RecordStatus} {calls : List (Exchange Call.Answer)}
    {outcome : Except ReconcileError Unit}
    (hheld : Act.Held (transit settings record ns transition) before calls outcome after) :
    (∃ reads course rest, calls = reads ++ rest ∧
      Takes settings record ns before reads transition course ∧
      (∀ deployment, Dialogue.after Call.effect reads deployment = deployment) ∧
      Act.Held (course.act ns) before rest outcome after) ∨
    ∃ error, outcome = .error error ∧ after = before ∧
      ∀ deployment, Dialogue.after Call.effect calls deployment = deployment := by
  cases transition with
  | enable restore =>
      rw [transit, enable_eq, Act.held_bind] at hheld
      rcases hheld with ⟨reads, rest, ⟨config, set⟩, middle, rfl, hreads, hrest⟩ |
        ⟨error, hreads, rfl⟩
      · obtain ⟨rfl, hsame⟩ := (Reading.prepare record ns).after_eq hreads
        exact Or.inl ⟨reads, _, rest, rfl, ⟨config, set, hreads, rfl⟩, hsame, hrest⟩
      · exact Or.inr ⟨error, rfl, (Reading.prepare record ns).after_eq hreads⟩
  | disable =>
      rw [transit, disable_eq, Act.held_bind] at hheld
      rcases hheld with ⟨reads, rest, found, middle, rfl, hreads, hrest⟩ | ⟨error, hreads, rfl⟩
      · obtain ⟨rfl, hsame⟩ := (Reading.cluster ns).after_eq hreads
        obtain ⟨rfl, -⟩ := Act.held_call_ok.mp hreads
        exact Or.inl ⟨_, _, rest, rfl, ⟨found, rfl, rfl⟩, hsame, hrest⟩
      · exact Or.inr ⟨error, rfl, (Reading.cluster ns).after_eq hreads⟩
  | forceDelete =>
      rw [transit, forceDelete_eq] at hheld
      exact Or.inl ⟨[], _, calls, rfl, ⟨rfl, rfl⟩, fun _ => rfl, hheld⟩
  | migrate =>
      rw [transit, migrate_eq] at hheld
      exact Or.inl ⟨[], _, calls, rfl, ⟨rfl, rfl⟩, fun _ => rfl, hheld⟩
  | retain => exact Or.inl ⟨[], [], calls, rfl, ⟨rfl, rfl⟩, fun _ => rfl, hheld⟩

/-- A move does not take a phase back. -/
def KeepsPhase : Move → Prop
  | .note change => ∀ status, (change status).phase = none → status.phase = none
  | _ => True

theorem keepsPhase_of_takes {settings : Settings} {record : TenantRecord} {ns : String}
    {status : RecordStatus} {reads : List (Exchange Call.Answer)} {transition : Transition}
    {course : Course} (htakes : Takes settings record ns status reads transition course) :
    ∀ move ∈ course, KeepsPhase move := by
  cases transition with
  | enable restore =>
      obtain ⟨config, set, -, rfl⟩ := htakes
      cases hmonitoring : settings.monitoring.enabled <;>
        simp [deliveryCourse, cleanupCourse, publishCourse, observeCourse, KeepsPhase, hmonitoring]
  | disable =>
      obtain ⟨found, -, rfl⟩ := htakes
      cases hstays : found.any fun cluster => !cluster.metadata.deleting <;>
        simp [removalCourse, withdrawalCourse, cleaningCourse, cleanupCourse, endCourse, KeepsPhase,
          hstays]
  | forceDelete =>
      obtain ⟨-, rfl⟩ := htakes
      simp [forceCourse, endCourse, KeepsPhase]
  | migrate =>
      obtain ⟨-, rfl⟩ := htakes
      simp [handoverCourse, withdrawalCourse, cleanupCourse, endCourse, KeepsPhase]
  | retain =>
      obtain ⟨-, rfl⟩ := htakes
      simp

/-- A transition that leaves no phase has found none. -/
theorem phase_of_held_transit {settings : Settings} {record : TenantRecord} {ns : String}
    {transition : Transition} {before after : RecordStatus} {calls : List (Exchange Call.Answer)}
    {outcome : Except ReconcileError Unit}
    (hheld : Act.Held (transit settings record ns transition) before calls outcome after)
    (hafter : after.phase = none) : before.phase = none := by
  rcases held_transit hheld with ⟨reads, course, rest, -, htakes, -, hcourse⟩ | ⟨-, -, rfl, -⟩
  · have hensures : Course.Ensures ns
        (fun _ progress => progress.status.phase = none → before.phase = none) course
        ⟨before, .nothing⟩ := by
      refine Course.ensures_of_kept ?_ id
      intro move hmem progress hbefore
      have hkeeps := keepsPhase_of_takes htakes move hmem
      cases move with
      | note change => exact fun hnone => hbefore (hkeeps _ hnone)
      | monitoring action => exact hbefore
      | channel needed bundle action =>
          intro hnone
          refine hbefore ?_
          simp only [Move.apply] at hnone
          split at hnone <;> exact hnone
    exact hensures.of_held hcourse hafter
  · exact hafter

end Actuator

end LogForwarding
