import LogForwarding.Proofs.Bookkeeping
import LogForwarding.Proofs.Fulfilment
import LogForwarding.Proofs.Trace

/-!
Bringing forwarding to the nodes again.  As long as the same is read, a delivery that has succeeded
is not made again, and one that has failed ends where it would have ended.
-/

namespace LogForwarding

/-- Two dialogues with the same questions are the same if each question has one answer. -/
theorem Dialogue.Held.eq_of_answers {Question : Type} {Answer : Question → Type} {α : Type}
    {dialogue : Dialogue Question Answer α} {answer : (question : Question) → Answer question}
    {first other : List (Exchange Answer)} {result outcome : α}
    (hfirst : dialogue.Held first result) (hother : dialogue.Held other outcome)
    (hall : ∀ exchange ∈ first, exchange.2 = answer exchange.1)
    (hsame : ∀ exchange ∈ other, exchange.2 = answer exchange.1) :
    first = other ∧ result = outcome := by
  induction dialogue generalizing first other with
  | done found =>
      obtain ⟨rfl, rfl⟩ := hfirst
      obtain ⟨rfl, rfl⟩ := hother
      exact ⟨rfl, rfl⟩
  | ask question next ih =>
      obtain ⟨reply, rest, rfl, hrest⟩ := hfirst
      obtain ⟨reply', rest', rfl, hrest'⟩ := hother
      obtain ⟨hreply, hrests⟩ := List.forall_mem_cons.mp hall
      obtain ⟨hreply', hrests'⟩ := List.forall_mem_cons.mp hsame
      dsimp only at hreply hreply'
      subst hreply hreply'
      obtain ⟨rfl, rfl⟩ := ih _ hrest hrest' hrests hrests'
      exact ⟨rfl, rfl⟩

open Actuator

/-- Whether a call is on a bundle. -/
def Call.isChannel : Call → Bool
  | .channel _ _ _ => true
  | _ => false

/-- Whether a call is on the objects by which a tenant is observed. -/
def Call.isMonitoring : Call → Bool
  | .monitoring _ _ => true
  | _ => false

/-- What is read among some calls is what a store holds. -/
def AnsweredBy (store : (call : Call) → call.Answer) (calls : List (Exchange Call.Answer)) : Prop :=
  ∀ exchange ∈ calls, exchange.1.isEffect = false → exchange.2 = store exchange.1

/-- What is read is the same whenever the store is. -/
theorem Reading.eq_of_answeredBy {α : Type} {act : Act α} (hact : Reading act)
    {before after status later : RecordStatus} {calls others : List (Exchange Call.Answer)}
    {outcome result : Except ReconcileError α} {store : (call : Call) → call.Answer}
    (hheld : Act.Held act before calls outcome after)
    (hother : Act.Held act status others result later)
    (hcalls : AnsweredBy store calls) (hothers : AnsweredBy store others) :
    calls = others ∧ outcome = result := by
  obtain ⟨-, hheld, hreads⟩ := hact.of_held hheld
  obtain ⟨-, hother, hothereads⟩ := hact.of_held hother
  obtain ⟨rfl, heq⟩ := Dialogue.Held.eq_of_answers (hheld .initial) (hother .initial)
    (fun exchange hmem => hcalls exchange hmem (hreads exchange hmem).1)
    (fun exchange hmem => hothers exchange hmem (hothereads exchange hmem).1)
  exact ⟨rfl, (Prod.mk.inj heq).1⟩

section Delivery

variable (settings : Settings) (ns : String) (restore : Bool) (config : TenantConfig)
  (set : ArtifactSet) (before : RecordStatus)

/-- The call that publishes some artifacts. -/
def publication : Call :=
  .channel ns configurationBundle (.publish (.ofArtifacts set))

/-- The calls of a delivery before the tenant is observed. -/
def supplyCalls : List Call :=
  (if before.cleanupPresent then [.channel ns cleanerBundle .withdraw] else []) ++
    if restore ∨ ¬ Vouches before set then [publication ns set] else []

/-- The calls by which the tenant comes to be observed. -/
def observeCalls : List Call :=
  if settings.monitoring.enabled then
    [.monitoring ns (.apply (Monitoring.objects ns config.auditEnabled settings.monitoring))]
  else []

/-- A delivery has done the first of its calls and has failed at the next one, if at any, and its
status tells what was done. -/
def Delivering (done : List Call) (failed : Option Call) (after : RecordStatus) : Prop :=
  done ++ failed.toList <+: supplyCalls ns restore set before ++ observeCalls settings ns config ∧
    (failed = none → done = supplyCalls ns restore set before ++ observeCalls settings ns config) ∧
    (failed ≠ none → publication ns set ∈ done → done = supplyCalls ns restore set before) ∧
    after = { before with
      phase := if failed = none then some .enabled else before.phase
      appliedDigest :=
        if publication ns set ∈ done then some set.digest else before.appliedDigest
      cleanupPresent :=
        if .channel ns cleanerBundle .withdraw ∈ done then false else before.cleanupPresent }

theorem deliveryCourse_stops :
    (deliveryCourse settings ns restore config set).Stops ns
      (Delivering settings ns restore config set before) [] before := by
  have hne := configurationBundle_ne_cleanerBundle
  obtain ⟨phase, generation, digest, noted, operation, error⟩ := before
  cases restore <;> cases noted <;> cases hmonitoring : settings.monitoring.enabled
  all_goals
    by_cases hphase : phase = some .enabled <;> by_cases hdigest : digest = some set.digest <;>
      simp [deliveryCourse, cleanupCourse, publishCourse, observeCourse, Course.Stops, Move.asked?,
        Move.noted, Delivering, supplyCalls, observeCalls, publication, Vouches, hne, hmonitoring,
        hphase, hdigest]

variable {settings ns restore config set before} {done : List Call} {failed : Option Call}
  {after : RecordStatus}

theorem withdraw_mem_supplyCalls :
    .channel ns cleanerBundle .withdraw ∈ supplyCalls ns restore set before ↔
      before.cleanupPresent := by
  have hne := configurationBundle_ne_cleanerBundle.symm
  by_cases hpublish : restore ∨ ¬ Vouches before set <;>
    simp [supplyCalls, publication, hpublish, hne]

theorem publication_mem_supplyCalls :
    publication ns set ∈ supplyCalls ns restore set before ↔ restore ∨ ¬ Vouches before set := by
  by_cases hpublish : restore ∨ ¬ Vouches before set <;>
    simp [supplyCalls, publication, hpublish]

theorem isChannel_of_mem_supplyCalls :
    ∀ call ∈ supplyCalls ns restore set before, call.isChannel := by
  intro call hmem
  rcases List.mem_append.mp hmem with hmem | hmem
  · split at hmem
    · rw [List.mem_singleton.mp hmem]
      rfl
    · cases hmem
  · split at hmem
    · rw [List.mem_singleton.mp hmem]
      rfl
    · cases hmem

theorem isMonitoring_of_mem_observeCalls :
    ∀ call ∈ observeCalls settings ns config, call.isMonitoring := by
  rw [observeCalls]
  split
  · exact List.forall_mem_singleton.mpr rfl
  · exact List.forall_mem_nil _

/-- All that is published before the tenant is observed are its artifacts. -/
theorem eq_publication_of_mem {payload : BundlePayload}
    (hmem :
      .channel ns configurationBundle (.publish payload) ∈ supplyCalls ns restore set before) :
    publication ns set = .channel ns configurationBundle (.publish payload) := by
  rcases List.mem_append.mp hmem with hmem | hmem
  · split at hmem
    · exact absurd (List.mem_singleton.mp hmem) (by simp)
    · cases hmem
  · split at hmem
    · exact (List.mem_singleton.mp hmem).symm
    · cases hmem

theorem filter_isMonitoring :
    (supplyCalls ns restore set before ++ observeCalls settings ns config).filter
      Call.isMonitoring = observeCalls settings ns config := by
  have hnone : (supplyCalls ns restore set before).filter Call.isMonitoring = [] := by
    refine List.filter_eq_nil_iff.mpr fun call hmem => ?_
    have hchannel := isChannel_of_mem_supplyCalls call hmem
    cases call <;> simp [Call.isChannel, Call.isMonitoring] at hchannel ⊢
  rw [List.filter_append, hnone, List.nil_append]
  exact List.filter_eq_self.mpr isMonitoring_of_mem_observeCalls

theorem not_mem_observeCalls (bundle : String) (action : ChannelAction) :
    .channel ns bundle action ∉ observeCalls settings ns config := by
  rw [observeCalls]
  split <;> simp

namespace Delivering

/-- The status after all that is called before the tenant is observed. -/
theorem status_of_supplied
    (hdelivering : Delivering settings ns restore config set before done failed after)
    (hcleanup : .channel ns cleanerBundle .withdraw ∈ done ↔ before.cleanupPresent)
    (hpublication : publication ns set ∈ done ↔ restore ∨ ¬ Vouches before set) :
    after = { before with
      phase := if failed = none then some .enabled else before.phase
      appliedDigest := some set.digest
      cleanupPresent := false } := by
  obtain ⟨-, -, -, rfl⟩ := hdelivering
  have hdigest : (if publication ns set ∈ done then some set.digest else before.appliedDigest) =
      some set.digest := by
    split
    · rfl
    · rename_i hnot
      rw [hpublication, not_or, Decidable.not_not] at hnot
      exact hnot.2.2
  have hpresent : (if .channel ns cleanerBundle .withdraw ∈ done then false
      else before.cleanupPresent) = false := by
    split
    · rfl
    · rename_i hnot
      rw [hcleanup] at hnot
      exact Bool.eq_false_iff.mpr hnot
  rw [hdigest, hpresent]

theorem status_of_ok
    (hdelivering : Delivering settings ns restore config set before done none after) :
    after = { before with
      phase := some .enabled, appliedDigest := some set.digest, cleanupPresent := false } := by
  have hdone := hdelivering.2.1 rfl
  refine hdelivering.status_of_supplied ?_ ?_
  · rw [hdone, List.mem_append, withdraw_mem_supplyCalls]
    exact or_iff_left (not_mem_observeCalls _ _)
  · rw [hdone, List.mem_append, publication_mem_supplyCalls]
    exact or_iff_left (not_mem_observeCalls _ _)

theorem status_of_published
    (hdelivering : Delivering settings ns restore config set before done failed after)
    (hfailed : failed ≠ none) (hmem : publication ns set ∈ done) :
    after = { before with appliedDigest := some set.digest, cleanupPresent := false } := by
  have hdone := hdelivering.2.2.1 hfailed hmem
  have hstatus := hdelivering.status_of_supplied (by rw [hdone, withdraw_mem_supplyCalls])
    (by rw [hdone, publication_mem_supplyCalls])
  rwa [if_neg hfailed] at hstatus

theorem isEffect_of_mem
    (hdelivering : Delivering settings ns restore config set before done failed after) :
    ∀ call ∈ done ++ failed.toList, call.isEffect := by
  intro call hmem
  rcases List.mem_append.mp (hdelivering.1.subset hmem) with hmem | hmem
  · have hchannel := isChannel_of_mem_supplyCalls call hmem
    cases call <;> first | rfl | cases hchannel
  · have hmonitoring := isMonitoring_of_mem_observeCalls call hmem
    cases call <;> first | rfl | cases hmonitoring

/-- What the status vouches for is not supplied again, and nothing comes to be noted. -/
theorem unchanged
    (hdelivering : Delivering settings ns false config set before done failed after)
    (hvouches : Vouches before set) (hclean : before.cleanupPresent = false) :
    done ++ failed.toList <+: observeCalls settings ns config ∧ after = before := by
  obtain ⟨hfront, -, -, rfl⟩ := hdelivering
  have hnone : supplyCalls ns false set before = [] := by
    simp [supplyCalls, hclean, hvouches]
  rw [hnone, List.nil_append] at hfront
  have hdone {bundle : String} {action : ChannelAction} : .channel ns bundle action ∉ done :=
    fun hmem => not_mem_observeCalls bundle action
      (hfront.subset (List.mem_append_left _ hmem))
  refine ⟨hfront, ?_⟩
  rw [publication, if_neg hdone, if_neg hdone, ← hvouches.1, ite_self]

/-- A restore supplies the nodes again. -/
theorem published_once
    (hdelivering : Delivering settings ns true config set before done failed after)
    (hclean : before.cleanupPresent = false) :
    (done ++ failed.toList).filter Call.isChannel = [publication ns set] := by
  obtain ⟨hfront, hwhole, -⟩ := hdelivering
  have hone : supplyCalls ns true set before = [publication ns set] := by
    simp [supplyCalls, hclean]
  rw [hone, List.singleton_append] at hfront hwhole
  cases hcalls : done ++ failed.toList with
  | nil =>
      obtain ⟨rfl, hnone⟩ := List.append_eq_nil_iff.mp hcalls
      cases hwhole (Option.toList_eq_nil_iff.mp hnone)
  | cons call others =>
      rw [hcalls] at hfront
      obtain ⟨rfl, hothers⟩ := List.cons_prefix_cons.mp hfront
      have hnone : others.filter Call.isChannel = [] := by
        refine List.filter_eq_nil_iff.mpr fun call hmem => ?_
        have hmonitoring := isMonitoring_of_mem_observeCalls call (hothers.subset hmem)
        cases call <;> simp [Call.isChannel, Call.isMonitoring] at hmonitoring ⊢
      rw [List.filter_cons_of_pos rfl, hnone]

end Delivering

end Delivery

/-- What a call brings about when it succeeds. -/
def Call.succeed : Call → Deployment → Deployment
  | .channel ns bundle action, deployment =>
      deployment.setBundle ns bundle (action.effect (deployment.bundle? ns bundle))
  | .monitoring ns action, deployment =>
      deployment.setObservers ns (action.effect (deployment.observer? ns))
  | _, deployment => deployment

theorem Call.effect_of_isOk {call : Call} {reply : call.Answer} (hok : reply.isOk)
    (deployment : Deployment) : call.effect reply deployment = call.succeed deployment := by
  cases reply with
  | ok result => cases call <;> rfl
  | failed error => cases hok
  | cancelled => cases hok

/-- The deployment after some calls that have succeeded. -/
def Deployment.afterDone (deployment : Deployment) (done : List Call) : Deployment :=
  done.foldl (fun deployment call => call.succeed deployment) deployment

theorem Tried.after_eq {done : List Call} {failed : Option Call}
    {calls : List (Exchange Call.Answer)} {outcome : Except ReconcileError Unit}
    (htried : Tried done failed calls outcome) (deployment : Deployment) :
    Dialogue.after Call.effect calls deployment = deployment.afterDone done := by
  have hall {some : List (Exchange Call.Answer)} (hall : ∀ exchange ∈ some, exchange.2.isOk)
      (deployment : Deployment) : Dialogue.after Call.effect some deployment =
        deployment.afterDone (some.map (·.1)) := by
    induction some generalizing deployment with
    | nil => rfl
    | cons exchange rest ih =>
        obtain ⟨hfirst, hrest⟩ := List.forall_mem_cons.mp hall
        rw [Dialogue.after_cons, Call.effect_of_isOk hfirst, ih hrest]
        rfl
  cases failed with
  | none =>
      obtain ⟨-, rfl, hok⟩ := htried
      exact hall hok deployment
  | some call =>
      obtain ⟨earlier, reply, error, rfl, rfl, hok, hreply, -⟩ := htried
      rw [Dialogue.after_append, hall hok]
      exact Call.effect_of_error hreply _

section Enable

variable {settings : Settings} {record : TenantRecord} {ns : String} {restore : Bool}
  {before after : RecordStatus} {calls : List (Exchange Call.Answer)}
  {outcome : Except ReconcileError Unit}

/-- The artifacts that were made for a record when this was read. -/
def Prepared (record : TenantRecord) (ns : String) (reads : List (Exchange Call.Answer))
    (config : TenantConfig) (set : ArtifactSet) : Prop :=
  ∀ status, Act.Held (prepare record ns) status reads (.ok (config, set)) status

theorem Prepared.isOk_of_mem {reads : List (Exchange Call.Answer)} {config : TenantConfig}
    {set : ArtifactSet} (hprepared : Prepared record ns reads config set) :
    ∀ exchange ∈ reads, exchange.1.isEffect = false ∧ exchange.2.isOk := by
  obtain ⟨-, -, hreads⟩ := (Reading.prepare record ns).of_held (hprepared .initial)
  rintro ⟨call, reply⟩ hmem
  obtain ⟨hread, hfails⟩ := hreads _ hmem
  refine ⟨hread, ?_⟩
  cases reply with
  | ok result => rfl
  | failed error => cases hfails _ rfl
  | cancelled => cases hfails _ rfl

theorem Prepared.isEffect_of_mem {reads : List (Exchange Call.Answer)} {config : TenantConfig}
    {set : ArtifactSet} (hprepared : Prepared record ns reads config set) :
    ∀ call ∈ reads.map (·.1), call.isEffect = false := by
  intro call hmem
  obtain ⟨exchange, hexchange, rfl⟩ := List.mem_map.mp hmem
  exact (hprepared.isOk_of_mem exchange hexchange).1

/-- An opt-in comes to some point of a delivery, or it cannot be prepared. -/
theorem held_enable (hns : record.metadata.ns = some ns)
    (hheld : Act.Held (execute settings record (.enable restore)) before calls outcome after) :
    (∃ error, Act.Held (prepare record ns) before calls (.error error) before ∧
      outcome = .error error) ∨
    ∃ reads rest config set done failed, calls = reads ++ rest ∧
      Prepared record ns reads config set ∧
        Tried (reads.map (·.1) ++ done) failed calls outcome ∧
          Delivering settings ns restore config set before done failed after := by
  rw [execute, hns] at hheld
  change Act.Held (enable settings record ns restore) before calls outcome after at hheld
  rw [enable_eq, Act.held_bind] at hheld
  rcases hheld with ⟨reads, rest, ⟨config, set⟩, status, rfl, hreads, hrest⟩ | ⟨error, hreads, rfl⟩
  · obtain ⟨rfl, hprepared, -⟩ := (Reading.prepare record ns).of_held hreads
    obtain ⟨done, failed, htried, hdelivering⟩ :=
      (deliveryCourse_stops settings ns restore config set _).of_held hrest
    refine Or.inr ⟨reads, rest, config, set, done, failed, rfl, hprepared, ?_, hdelivering⟩
    exact htried.append fun exchange hmem => (Prepared.isOk_of_mem hprepared exchange hmem).2
  · obtain ⟨rfl, -⟩ := (Reading.prepare record ns).of_held hreads
    exact Or.inl ⟨error, hreads, rfl⟩

/-- As long as the same is read, the same is delivered. -/
theorem delivering_of_prepared {store : (call : Call) → call.Answer}
    {reads : List (Exchange Call.Answer)} {config : TenantConfig} {set : ArtifactSet}
    (hprepared : Prepared record ns reads config set) (hreads : AnsweredBy store reads)
    (hns : record.metadata.ns = some ns)
    (hheld : Act.Held (execute settings record (.enable restore)) before calls outcome after)
    (hcalls : AnsweredBy store calls) :
    ∃ done failed, Tried (reads.map (·.1) ++ done) failed calls outcome ∧
      Delivering settings ns restore config set before done failed after := by
  have hreading := Reading.prepare record ns
  rcases held_enable hns hheld with
    ⟨error, hfailed, -⟩ |
    ⟨others, rest, found, made, done, failed, rfl, hothers, htried, hdelivering⟩
  · cases (hreading.eq_of_answeredBy (hprepared .initial) hfailed hreads hcalls).2
  · obtain ⟨rfl, heq⟩ := hreading.eq_of_answeredBy (hprepared .initial) (hothers .initial) hreads
      fun exchange hmem => hcalls exchange (List.mem_append_left _ hmem)
    cases heq
    exact ⟨done, failed, htried, hdelivering⟩

end Enable

namespace Deployment

variable {deployment : Deployment} {settings : Settings} {ns : String} {config : TenantConfig}
  {set : ArtifactSet} {done rest : List Call}

theorem afterDone_append :
    deployment.afterDone (done ++ rest) = (deployment.afterDone done).afterDone rest :=
  List.foldl_append

theorem afterDone_of_reads (hreads : ∀ call ∈ done, call.isEffect = false) :
    deployment.afterDone done = deployment := by
  induction done with
  | nil => rfl
  | cons call rest ih =>
      obtain ⟨hread, hothers⟩ := List.forall_mem_cons.mp hreads
      have hsame : call.succeed deployment = deployment := by
        cases call <;> first | rfl | cases hread
      rw [afterDone, List.foldl_cons, hsame]
      exact ih hothers

/-- The objects by which a tenant is observed are no bundles. -/
theorem bundle?_afterDone_observeCalls :
    (deployment.afterDone (observeCalls settings ns config)).bundle? = deployment.bundle? := by
  rw [observeCalls]
  split <;> rfl

/-- To supply the nodes with the same again changes no bundle. -/
theorem bundle?_supplied_again {restore : Bool} {before middle : RecordStatus}
    (hneeded : restore ∨ ¬ Vouches before set) (hclean : middle.cleanupPresent = false) :
    ((deployment.afterDone (supplyCalls ns restore set before)).afterDone
        (supplyCalls ns restore set middle)).bundle? =
      (deployment.afterDone (supplyCalls ns restore set before)).bundle? := by
  have hsupply : supplyCalls ns restore set before =
      (if before.cleanupPresent then [.channel ns cleanerBundle .withdraw] else []) ++
        [publication ns set] := by
    rw [supplyCalls, if_pos hneeded]
  have hagain : supplyCalls ns restore set middle =
      if restore ∨ ¬ Vouches middle set then [publication ns set] else [] := by
    rw [supplyCalls, hclean]
    rfl
  rw [hagain, hsupply, afterDone_append]
  generalize deployment.afterDone (if before.cleanupPresent then _ else _) = cleaned
  split
  · funext ns' bundle
    simp only [afterDone, publication, List.foldl_cons, List.foldl_nil, Call.succeed,
      ChannelAction.effect, bundle?_setBundle]
    split <;> rfl
  · rfl

end Deployment

/-- The same is done again for a record, as long as the same is read. -/
structure Execution.Repeats (again first : Execution) (ns : String)
    (store : (call : Call) → call.Answer) : Prop where
  held : again.HeldIn ns
  settings_eq : again.settings = first.settings
  record_eq : again.record = first.record
  answered : AnsweredBy store again.calls

namespace Execution

variable {again first : Execution} {ns : String} {restore : Bool}
  {store : (call : Call) → call.Answer} {reads : List (Exchange Call.Answer)}
  {config : TenantConfig} {set : ArtifactSet}

theorem Repeats.delivering (hrepeats : again.Repeats first ns store)
    (hprepared : Prepared first.record ns reads config set) (hreads : AnsweredBy store reads)
    (henable : again.transition = .enable restore) :
    ∃ done failed, Tried (reads.map (·.1) ++ done) failed again.calls again.result ∧
      Delivering first.settings ns restore config set again.before.status done failed
        again.after.status := by
  have hheld := hrepeats.held.held
  have hns := hrepeats.held.ns_eq
  rw [hrepeats.settings_eq, hrepeats.record_eq, henable] at hheld
  rw [hrepeats.record_eq] at hns
  exact delivering_of_prepared hprepared hreads hns hheld hrepeats.answered

/-- What stands after an opt-in is what its calls have brought about that were done. -/
theorem HeldIn.deployment_eq_afterDone {reads done : List Call} {failed : Option Call}
    (hheld : first.HeldIn ns) (hreads : ∀ call ∈ reads, call.isEffect = false)
    (htried : Tried (reads ++ done) failed first.calls first.result) :
    first.after.deployment = first.before.deployment.afterDone done := by
  rw [hheld.deployment_eq, htried.after_eq, Deployment.afterDone_append,
    Deployment.afterDone_of_reads hreads]

/-! What follows a delivery whose preparation succeeded. -/

variable {done : List Call} {failed : Option Call}

/-- What was delivered is observed again and not supplied again. -/
theorem Repeats.observes (hrepeats : again.Repeats first ns store)
    (hbefore : again.before = first.after) (hplain : again.transition = .enable false)
    (hprepared : Prepared first.record ns reads config set)
    (hreads : AnsweredBy store reads) (hmade : callsMade first.calls = done)
    (hdelivering : Delivering first.settings ns restore config set first.before.status done none
      first.after.status) :
    callsMade again.calls <+: (callsMade first.calls).filter Call.isMonitoring ∧
      again.after.status = first.after.status := by
  obtain ⟨others, stopped, htried, hdelivering'⟩ := hrepeats.delivering hprepared hreads hplain
  have hstatus := hdelivering.status_of_ok
  have hvouches : Vouches again.before.status set := by
    rw [hbefore, hstatus]
    exact ⟨rfl, rfl⟩
  have hclean : again.before.status.cleanupPresent = false := by rw [hbefore, hstatus]
  obtain ⟨hfront, hsame⟩ := hdelivering'.unchanged hvouches hclean
  have hmade' := (htried.callsMade_and_callsDone hprepared.isEffect_of_mem
    hdelivering'.isEffect_of_mem).1
  rw [hmade', hmade, hsame, hbefore, hdelivering.2.1 rfl, filter_isMonitoring]
  exact ⟨hfront, rfl⟩

/-- What was delivered is published again by a restore. -/
theorem Repeats.publishes (hrepeats : again.Repeats first ns store)
    (hbefore : again.before = first.after) (hrestore : again.transition = .enable true)
    (hprepared : Prepared first.record ns reads config set)
    (hreads : AnsweredBy store reads)
    (hdelivering : Delivering first.settings ns restore config set first.before.status done none
      first.after.status) :
    (callsMade again.calls).filter Call.isChannel = [publication ns set] := by
  obtain ⟨others, stopped, htried, hdelivering'⟩ := hrepeats.delivering hprepared hreads hrestore
  have hclean : again.before.status.cleanupPresent = false := by
    rw [hbefore, hdelivering.status_of_ok]
  rw [(htried.callsMade_and_callsDone hprepared.isEffect_of_mem hdelivering'.isEffect_of_mem).1]
  exact hdelivering'.published_once hclean

/-- Another try after a delivery that had published ends where one try would have ended. -/
theorem Repeats.ends_alike {retry straight : Execution} (hfirst : first.HeldIn ns)
    (hretry : retry.Repeats first ns store) (hretried : retry.before = first.after)
    (hagain : retry.transition = .enable restore) (hretryOk : retry.result = .ok ())
    (hstraight : straight.Repeats first ns store) (hstarted : straight.before = first.before)
    (hatOnce : straight.transition = .enable restore) (hstraightOk : straight.result = .ok ())
    (hprepared : Prepared first.record ns reads config set) (hreads : AnsweredBy store reads)
    (htried : Tried (reads.map (·.1) ++ done) failed first.calls first.result)
    (hdelivering : Delivering first.settings ns restore config set first.before.status done failed
      first.after.status)
    (hfailed : failed ≠ none) (hpublished : publication ns set ∈ done) :
    retry.after.status = straight.after.status ∧
      retry.after.deployment.bundle? = straight.after.deployment.bundle? := by
  have hnone := hprepared.isEffect_of_mem
  have hsupplied := hdelivering.2.2.1 hfailed hpublished
  have hneeded : restore ∨ ¬ Vouches first.before.status set := by
    rwa [hsupplied, publication_mem_supplyCalls] at hpublished
  have hstatus := hdelivering.status_of_published hfailed hpublished
  obtain ⟨doneAgain, failedAgain, htriedAgain, hdeliveringAgain⟩ :=
    hretry.delivering hprepared hreads hagain
  obtain ⟨doneAtOnce, failedAtOnce, htriedAtOnce, hdeliveringAtOnce⟩ :=
    hstraight.delivering hprepared hreads hatOnce
  obtain rfl := htriedAgain.outcome_ok_iff.mp hretryOk
  obtain rfl := htriedAtOnce.outcome_ok_iff.mp hstraightOk
  constructor
  · rw [hdeliveringAgain.status_of_ok, hdeliveringAtOnce.status_of_ok, hretried, hstarted, hstatus]
  · have hclean : retry.before.status.cleanupPresent = false := by rw [hretried, hstatus]
    rw [hretry.held.deployment_eq_afterDone hnone htriedAgain,
      hstraight.held.deployment_eq_afterDone hnone htriedAtOnce, hdeliveringAgain.2.1 rfl,
      hdeliveringAtOnce.2.1 rfl, hretried, hstarted,
      hfirst.deployment_eq_afterDone hnone htried, hsupplied, Deployment.afterDone_append,
      Deployment.afterDone_append, Deployment.bundle?_afterDone_observeCalls,
      Deployment.bundle?_afterDone_observeCalls, ← hretried]
    exact Deployment.bundle?_supplied_again hneeded hclean

end Execution

/-- A delivery that has succeeded is not made again: when the same is read, nothing is published and
nothing is withdrawn, and nothing comes to be noted.  A restore publishes what the record asks for,
once.  A delivery that has failed after it had published ends at another try where it would have
ended at once. -/
theorem delivery_converges {first : Execution} {ns : String} {restore : Bool}
    {store : (call : Call) → call.Answer} (hfirst : first.HeldIn ns)
    (henable : first.transition = .enable restore) (hstore : AnsweredBy store first.calls) :
    (first.result = .ok () → ∀ again : Execution, again.Repeats first ns store →
      again.before = first.after →
        (again.transition = .enable false →
          callsMade again.calls <+: (callsMade first.calls).filter Call.isMonitoring ∧
            again.after.status = first.after.status) ∧
        (again.transition = .enable true → ∃ reads config set,
          Prepared first.record ns reads config set ∧ AnsweredBy store reads ∧
            (callsMade again.calls).filter Call.isChannel = [publication ns set])) ∧
    ∀ error payload, first.result = .error error →
      .channel ns configurationBundle (.publish payload) ∈ callsDone first.calls →
        ∀ retry straight : Execution, retry.Repeats first ns store → retry.before = first.after →
          retry.transition = .enable restore → retry.result = .ok () →
          straight.Repeats first ns store → straight.before = first.before →
          straight.transition = .enable restore → straight.result = .ok () →
            retry.after.status = straight.after.status ∧
              retry.after.deployment.bundle? = straight.after.deployment.bundle? := by
  have hheld := hfirst.held
  rw [henable] at hheld
  rcases held_enable hfirst.ns_eq hheld with ⟨error, hfailed, hresult⟩ |
    ⟨reads, rest, config, set, done, failed, hcalls, hprepared, htried, hdelivering⟩
  · obtain ⟨-, -, hreads⟩ := (Reading.prepare first.record ns).of_held hfailed
    refine ⟨fun hok => ?_, fun error payload _ hmem => ?_⟩
    · rw [hok] at hresult
      cases hresult
    · obtain ⟨hmem, heffect⟩ := List.mem_filter.mp hmem
      obtain ⟨exchange, hexchange, hcall⟩ := List.mem_map.mp hmem
      have hread := (hreads exchange (List.mem_filter.mp hexchange).1).1
      rw [hcall] at hread
      cases hread
  · have hreads : AnsweredBy store reads := fun exchange hmem =>
      hstore exchange (by rw [hcalls]; exact List.mem_append_left _ hmem)
    obtain ⟨hmade, hdone⟩ :=
      htried.callsMade_and_callsDone hprepared.isEffect_of_mem hdelivering.isEffect_of_mem
    constructor
    · intro hok again hrepeats hbefore
      obtain rfl := htried.outcome_ok_iff.mp hok
      rw [Option.toList_none, List.append_nil] at hmade
      exact ⟨fun hplain => hrepeats.observes hbefore hplain hprepared hreads hmade hdelivering,
        fun hrestore => ⟨reads, config, set, hprepared, hreads,
          hrepeats.publishes hbefore hrestore hprepared hreads hdelivering⟩⟩
    · intro error payload hresult hmem retry straight hretry hretried hagain hretryOk hstraight
        hstarted hatOnce hstraightOk
      have hfailed : failed ≠ none := by
        rintro rfl
        cases hresult.symm.trans (htried.outcome_ok_iff.mpr rfl)
      have hpublished : publication ns set ∈ done := by
        rw [hdone] at hmem
        rcases List.mem_append.mp (hdelivering.1.subset (List.mem_append_left _ hmem)) with
          hsupply | hobserve
        · rwa [eq_publication_of_mem hsupply]
        · exact absurd hobserve (not_mem_observeCalls _ _)
      exact hretry.ends_alike hfirst hretried hagain hretryOk hstraight hstarted hatOnce hstraightOk
        hprepared hreads htried hdelivering hfailed hpublished

section Sample

/-- What is read in a world that holds a cluster and nothing else. -/
def Call.sampleStore (made : Call) : made.Answer :=
  (Call.unhindered (some .sample) .null made ()).1

theorem answeredBy_sampleStore {α : Type} {dialogue : Dialogue Call Call.Answer α} :
    AnsweredBy Call.sampleStore
      (dialogue.exchangesWith (Call.unhindered (some .sample) .null) ()) := by
  intro exchange hmem _
  obtain ⟨_, hanswer⟩ := Dialogue.exists_answer_of_mem_exchangesWith hmem
  exact hanswer

theorem TenantRecord.sample_prepared : ∃ reads config set,
    Prepared (.sample false) "tenant" reads config set ∧ AnsweredBy Call.sampleStore reads := by
  obtain ⟨set, hset⟩ := exists_artifacts TenantConfig.sampleGrave_valid
  have hconfig : tenantConfig (.sample false) = .ok .sampleGrave := tenantConfig_eq_sampleGrave rfl
  have hrun : (prepare (.sample false) "tenant" .initial).run
      (Call.unhindered (some .sample) .null) () = _ := run_prepare "tenant" .initial hconfig hset
  have hheld := Dialogue.held_run (Call.unhindered (some .sample) .null)
    (prepare (.sample false) "tenant" .initial) ()
  rw [hrun] at hheld
  exact ⟨_, _, set, ((Reading.prepare _ _).of_held hheld).2.1, answeredBy_sampleStore⟩

namespace Execution

variable {ns : String}

/-- The execution of a transition when nothing fails. -/
def unhindered (settings : Settings) (record : TenantRecord) (transition : Transition)
    (cluster : Cluster) (before : Progress) : Execution :=
  let dialogue := execute settings record transition before.status
  let calls := dialogue.exchangesWith (Call.unhindered (some cluster) .null) ()
  let ended := (dialogue.run (Call.unhindered (some cluster) .null) ()).1
  ⟨settings, record, transition, before, calls, ended.1,
    ⟨ended.2, Dialogue.after Call.effect calls before.deployment⟩⟩

section Unhindered

variable {settings : Settings} {record : TenantRecord} {restore : Bool} {cluster : Cluster}
  {before : Progress} {config : TenantConfig} (hns : record.metadata.ns = some ns)

include hns

theorem heldIn_unhindered {transition : Transition} :
    (unhindered settings record transition cluster before).HeldIn ns :=
  ⟨hns, Dialogue.held_run _ _ (), rfl⟩

theorem unhindered_ok (hconfig : tenantConfig record = .ok config)
    (hvalid : config.withDefaults.validate cluster.context = []) :
    (unhindered settings record (.enable restore) cluster before).result = .ok () := by
  obtain ⟨after, hrun⟩ := exists_run_execute hns restore
    before.status hconfig hvalid
  exact congrArg (fun result => result.1.1) hrun

end Unhindered

/-- An opt-in of the sample that is given up when it has published. -/
def sampleGivenUp (reads : List (Exchange Call.Answer)) (config : TenantConfig)
    (set : ArtifactSet) : Execution :=
  let calls := reads ++
    [⟨publication "tenant" set, .ok ()⟩,
     ⟨.monitoring "tenant"
        (.apply (Monitoring.objects "tenant" config.auditEnabled Settings.standard.monitoring)),
      .cancelled⟩]
  ⟨.standard, .sample false, .enable false, ⟨.initial, .nothing⟩, calls, .error .cancelled,
    ⟨{ RecordStatus.initial with appliedDigest := some set.digest },
      Dialogue.after Call.effect calls .nothing⟩⟩

theorem sampleGivenUp_heldIn {reads : List (Exchange Call.Answer)} {config : TenantConfig}
    {set : ArtifactSet} (hprepared : Prepared (.sample false) "tenant" reads config set) :
    (sampleGivenUp reads config set).HeldIn "tenant" := by
  refine ⟨rfl, ?_, rfl⟩
  change Act.Held (enable .standard (.sample false) "tenant" false) .initial _ _ _
  rw [enable_eq]
  refine Act.held_bind.mpr (Or.inl ⟨reads, _, (config, set), .initial, rfl, hprepared _, ?_⟩)
  exact ⟨.ok (), _, rfl, .cancelled, [], rfl, rfl, rfl⟩

/-- An opt-in of the sample when nothing fails. -/
def sampleDelivered (restore : Bool) (before : Progress) : Execution :=
  unhindered .standard (.sample false) (.enable restore) .sample before

theorem sampleDelivered_ok (restore : Bool) (before : Progress) :
    (sampleDelivered restore before).result = .ok () :=
  unhindered_ok rfl (tenantConfig_eq_sampleGrave rfl) TenantConfig.sampleGrave_valid

theorem sampleDelivered_repeats {first : Execution} (hsettings : first.settings = .standard)
    (hrecord : first.record = .sample false) (restore : Bool) (before : Progress) :
    (sampleDelivered restore before).Repeats first "tenant" Call.sampleStore :=
  ⟨heldIn_unhindered rfl, hsettings.symm, hrecord.symm, answeredBy_sampleStore⟩

end Execution

/-- The sample is delivered once, and a delivery that was given up ends where one ends that was
not. -/
theorem sample_converges :
    (∀ restore, (Execution.sampleDelivered false
        (Execution.sampleDelivered restore ⟨.initial, .nothing⟩).after).after.status =
      (Execution.sampleDelivered restore ⟨.initial, .nothing⟩).after.status) ∧
    ∃ reads config set,
      let givenUp := Execution.sampleGivenUp reads config set
      givenUp.HeldIn "tenant" ∧ givenUp.after.status.phase = none ∧
        (Execution.sampleDelivered false givenUp.after).after.status =
          (Execution.sampleDelivered false ⟨.initial, .nothing⟩).after.status := by
  constructor
  · intro restore
    have hfirst : (Execution.sampleDelivered restore ⟨.initial, .nothing⟩).HeldIn "tenant" :=
      Execution.heldIn_unhindered rfl
    obtain ⟨hagain, -⟩ := delivery_converges hfirst rfl answeredBy_sampleStore
    exact ((hagain (Execution.sampleDelivered_ok _ _) _
      (Execution.sampleDelivered_repeats rfl rfl false _) rfl).1 rfl).2
  · obtain ⟨reads, config, set, hprepared, hreads⟩ := TenantRecord.sample_prepared
    have hheld := Execution.sampleGivenUp_heldIn hprepared
    have hstore : AnsweredBy Call.sampleStore (Execution.sampleGivenUp reads config set).calls := by
      intro exchange hmem hread
      rcases List.mem_append.mp hmem with hmem | hmem
      · exact hreads exchange hmem hread
      · simp only [List.mem_cons, List.not_mem_nil, or_false] at hmem
        rcases hmem with rfl | rfl <;> cases hread
    have hpublished : .channel "tenant" configurationBundle (.publish (.ofArtifacts set)) ∈
        callsDone (Execution.sampleGivenUp reads config set).calls := by
      rw [callsDone, callsMade, Execution.sampleGivenUp]
      simp [publication, Reply.isOk, Call.isEffect]
    obtain ⟨-, hretried⟩ := delivery_converges hheld rfl hstore
    refine ⟨reads, config, set, hheld, rfl, ?_⟩
    exact (hretried _ _ rfl hpublished _ _
      (Execution.sampleDelivered_repeats rfl rfl false _) rfl rfl (Execution.sampleDelivered_ok _ _)
      (Execution.sampleDelivered_repeats rfl rfl false _) rfl rfl
      (Execution.sampleDelivered_ok _ _)).1

end Sample

end LogForwarding
