import LogForwarding.Proofs.Fulfilment

/-!
What becomes of the annotation that asks for a step of a migration, when others edit the record
while it is looked after.  A look goes by the record as it was read, however long ago.  So a request
can only be lost to a look that has read an earlier one, and just when it was made in the meantime.
-/

namespace LogForwarding

open Controller

/-- What a stored record says of the step of a migration that is asked for, whatever that is. -/
def operationOf (record : Json) : Option Json :=
  ((record.get? "metadata").bind (·.get? "annotations")).bind
    (·.get? TenantRecord.operationAnnotation)

section Changes

/-- What happens to the finalizers of a record does not concern its annotations. -/
theorem operationOf_changeAt {change : Json → String → Option Json} (hlocal : Json.Local change)
    {value changed : Json} {place : List String}
    (hchange : value.changeAt change ("metadata" :: "finalizers" :: place) = some changed) :
    operationOf changed = operationOf value := by
  cases value with
  | obj members =>
      obtain ⟨member, new, hmember, hnew, heq⟩ := Json.changeAt_obj hchange
      have hannotations : new.get? "annotations" = member.get? "annotations" :=
        hlocal.get?_changeAt hnew (by simp)
      have hbefore : (Json.obj members).get? "metadata" = some member := hmember
      have hafter : changed.get? "metadata" = some new := by
        rw [heq, Json.get?, Dictionary.find?_insert, if_pos rfl]
      rw [operationOf, operationOf, hbefore, hafter, Option.bind_some, Option.bind_some,
        hannotations]
  | arr items =>
      simp only [Json.changeAt, Option.bind_eq_bind, Option.bind_eq_some_iff] at hchange
      obtain ⟨n, -, item, -, new, -, heq⟩ := hchange
      rw [← Option.some.inj heq]
      rfl
  | _ => simp [Json.changeAt] at hchange

theorem operationOf_patchAll {operations : List PatchOperation} (hon : OnFinalizers operations)
    {value changed : Json} (hpatch : Json.patchAll operations value = some changed) :
    operationOf changed = operationOf value := by
  obtain ⟨change, place, hlocal, hchange⟩ := hon hpatch
  exact operationOf_changeAt hlocal hchange

theorem operationOf_merge_statusChange (status : RecordStatus) (value : Json) :
    operationOf (Json.merge (statusChange status) value) = operationOf value := by
  rw [operationOf, statusChange, Json.get?_merge, if_neg (by simp)]
  rfl

theorem operationOf_merge_annotationChange (value : Json) :
    operationOf (Json.merge annotationChange value) = none := by
  rw [operationOf, annotationChange, Json.get?_merge, if_pos rfl, if_neg (by simp [Json.object]),
    Option.bind_some, Json.get?_merge, if_pos rfl, if_neg (by simp [Json.object]),
    Option.bind_some, Json.get?_merge, if_pos rfl, if_pos rfl]

end Changes

/-- What was read under a key was read from what stands there. -/
theorem Decoder.exists_find?_of_entries {α : Type} {item : Decoder α} {position : Nat}
    {members : Dictionary Json} {results : Dictionary α}
    (hread : entries item position members = .ok results) {key : String} {result : α}
    (hfound : results.find? key = some result) :
    ∃ value, members.find? key = some value ∧ item value = .ok result := by
  induction members generalizing position results with
  | nil =>
      cases hread
      cases hfound
  | cons entry rest ih =>
      obtain ⟨name, value⟩ := entry
      obtain ⟨first, others, hfirst, hothers, heq⟩ := entries_cons_ok_iff.mp hread
      rw [heq, Dictionary.find?_cons] at hfound
      rw [Dictionary.find?_cons]
      by_cases hname : name = key
      · rw [if_pos hname] at hfound ⊢
        rw [← Option.some.inj hfound]
        exact ⟨value, rfl, hfirst⟩
      · rw [if_neg hname] at hfound ⊢
        exact ih hothers hfound

theorem Decoder.eq_str_of_text {value : Json} {text : String}
    (hread : Decoder.text value = .ok text) :
    value = .str text := by
  cases value with
  | str found => rw [Except.ok.inj hread]
  | _ => cases hread

/-- What is asked for in a record stands in its annotation as it is kept. -/
theorem TenantRecord.StoredAs.operationOf_eq {record : TenantRecord} {value : Json} {text : String}
    (hstored : record.StoredAs value)
    (hrequest : record.metadata.annotation? operationAnnotation = some text) :
    operationOf value = some (.str text) := by
  obtain ⟨members, hvalue, hdecode⟩ := hstored
  rw [hvalue] at hdecode
  obtain ⟨metadata, hmetadata, hread⟩ := find?_of_reads (decode_obj_ok_iff.mp hdecode).1
  obtain ⟨inner, annotations, _, _, hinner, -, -, -, hannotations, -, -, heq, -⟩ :=
    ObjectMeta.decode_ok_iff.mp hread
  have hentries := dictionary_members_of_nullable (nullable_head_of_reads hannotations)
  rw [← heq] at hentries
  obtain ⟨found, hfound, htext⟩ := Decoder.exists_find?_of_entries hentries hrequest
  rw [Decoder.eq_str_of_text htext] at hfound
  rw [operationOf, hvalue, Json.get?, hmetadata, Option.bind_some, hinner, Json.get?]
  cases hmember : Dictionary.find? inner "annotations" with
  | none =>
      rw [hmember] at hfound
      cases hfound
  | some member =>
      rw [hmember] at hfound
      rw [Option.bind_some, Json.get?_eq_find?]
      exact hfound

theorem TenantRecord.annotation?_of_migrationStep? {record : TenantRecord}
    (hstep : record.migrationStep? = some .restore) :
    record.metadata.annotation? operationAnnotation = some MigrationStep.restore.name := by
  rw [migrationStep?] at hstep
  split at hstep
  · cases hstep
  · assumption
  · cases hstep

/-- A restore is only planned for a record that asks for it. -/
theorem migrationStep?_of_plan_restore {record : TenantRecord}
    (hplan : Transition.plan record = .enable true) :
    record.migrationStep? = some .restore ∧ ¬ record.deleting := by
  by_cases hdeleting : record.deleting
  · exact absurd hplan (plan_ne_enable_of_deleting hdeleting true)
  · refine ⟨?_, hdeleting⟩
    rw [Transition.plan, if_neg hdeleting] at hplan
    split at hplan
    · split at hplan <;> cases hplan
    · assumption
    · cases hplan

/-- A restore that is planned is still asked for in the record that was read. -/
theorem TenantRecord.StoredAs.operationOf_of_plan {record : TenantRecord} {value : Json}
    (hstored : record.StoredAs value) (hplan : Transition.plan record = .enable true) :
    operationOf value = some (.str MigrationStep.restore.name) :=
  hstored.operationOf_eq (annotation?_of_migrationStep? (migrationStep?_of_plan_restore hplan).1)

section Questions

/-- Whatever an inquiry is answered, the annotation stays as it is. -/
def Inquiry.Spares (inquiry : Inquiry) : Prop :=
  ∀ answer world, operationOf (inquiry.effect answer world).record = operationOf world.record

theorem Inquiry.spares_request {request : ApiRequest}
    (hchange : ∀ record, operationOf (request.change record) = operationOf record) :
    Spares (.api (.request request)) := by
  intro response world
  by_cases hgranted : Granted response
  · rw [effect_of_granted world hgranted]
    exact hchange world.record
  · rw [effect_of_not_granted world hgranted]

theorem Inquiry.spares_mergeStatus (key : ObjectKey) (status : RecordStatus) :
    Spares (.api (.request (.mergeStatus key (statusChange status)))) :=
  spares_request fun record => operationOf_merge_statusChange status record

theorem Inquiry.spares_patch (key : ObjectKey) {operations : List PatchOperation}
    (hon : OnFinalizers operations) :
    Spares (.api (.request (.patch key operations))) := by
  refine spares_request fun record => ?_
  rw [ApiRequest.change]
  cases hchanged : Json.patchAll operations record with
  | none => rfl
  | some changed => exact operationOf_patchAll hon hchanged

/-- The request that takes the annotation away. -/
def Inquiry.answered (key : ObjectKey) : Inquiry :=
  .api (.request (.merge key annotationChange))

/-- When a restore is answered the annotation is gone. -/
theorem Inquiry.operationOf_effect_answered {response : ApiResponse} (hgranted : Granted response)
    (key : ObjectKey) (world : World) :
    operationOf (Inquiry.effect (answered key) response world).record = none := by
  have heffect := effect_of_granted world hgranted (.merge key annotationChange)
  exact (congrArg (fun world => operationOf world.record) heffect).trans
    (operationOf_merge_annotationChange world.record)

/-- What may be asked while a record is looked after: what spares the annotation and, if a restore
is planned, that it is taken away. -/
def MayAsk (record : TenantRecord) (inquiry : Inquiry) : Prop :=
  inquiry.Spares ∨ Transition.plan record = .enable true ∧ ∃ key, inquiry = .answered key

/-- While a record is looked after the annotation is spared, but at the end of a restore. -/
theorem Controller.mayAsk_care (settings : Settings) (record : TenantRecord) :
    (care settings record).Asks (MayAsk record) := by
  refine asks_care fun ns hns => ⟨?_, ?_, ?_, ?_, ?_, ?_⟩
  · exact fun status => Dialogue.Asks.of_forall (fun _ => Or.inl fun _ _ => rfl) _
  · exact Or.inl fun _ _ => rfl
  · exact fun status => Or.inl (Inquiry.spares_mergeStatus _ status)
  · exact fun hplan => Or.inr ⟨hplan, _, rfl⟩
  · exact Or.inl (Inquiry.spares_patch _ (onFinalizers_addFinalizer _))
  · exact fun position => Or.inl (Inquiry.spares_patch _ (onFinalizers_removeFinalizer position))

end Questions

/-- What a look may ask leaves the annotation alone, or it answers a restore. -/
theorem operationOf_effect {record : TenantRecord} {inquiry : Inquiry}
    (hmay : MayAsk record inquiry) (answer : inquiry.Answer) (world : World) :
    operationOf (inquiry.effect answer world).record = operationOf world.record ∨
      operationOf (inquiry.effect answer world).record = none ∧
        Transition.plan record = .enable true ∧ ∃ key response,
          (⟨inquiry, answer⟩ : Exchange Inquiry.Answer) =
            Care.changeExchange (.merge key annotationChange) response ∧ Granted response := by
  rcases hmay with hspares | ⟨hplan, key, hinquiry⟩
  · exact Or.inl (hspares answer world)
  · subst hinquiry
    by_cases hgranted : Granted answer
    · exact Or.inr ⟨Inquiry.operationOf_effect_answered hgranted key world, hplan, key, answer, rfl,
        hgranted⟩
    · have heffect := effect_of_not_granted world hgranted (.merge key annotationChange)
      exact Or.inl (congrArg (fun world => operationOf world.record) heffect)

/-- A look after a record that is under way. -/
structure Look where
  /-- The record as it was read. -/
  record : TenantRecord
  /-- What the annotation was after the last edit by others since the record was read. -/
  edited : Option (Option Json)
  /-- What is still to be asked. -/
  rest : Care (Except ReconcileError Requeue)

/-- A record that is edited by others, and the looks after it that are under way. -/
structure Scene where
  world : World
  looks : List Look

/-- What can happen to a record. -/
inductive Event where
  /-- Others edit the record. -/
  | edit (edited : Json)
  /-- The record is read, and a look after it begins. -/
  | read (record : TenantRecord)
  /-- A look that is under way makes its next exchange. -/
  | exchange (place : Nat) (exchange : Exchange Inquiry.Answer)

/-- Edits and the exchanges of looks follow each other in any order, and any time may pass between
them. -/
inductive Step (settings : Settings) : Scene → Event → Scene → Prop
  | edit {world : World} {looks : List Look} (edited : Json) :
      Step settings ⟨world, looks⟩ (.edit edited)
        ⟨⟨edited, world.deployment⟩,
          looks.map fun look => { look with edited := some (operationOf edited) }⟩
  | read {world : World} {looks : List Look} {record : TenantRecord}
      (hstored : record.StoredAs world.record) :
      Step settings ⟨world, looks⟩ (.read record)
        ⟨world, looks ++ [⟨record, none, care settings record⟩]⟩
  | exchange {world : World} {looks : List Look} {place : Nat} {look : Look} {inquiry : Inquiry}
      {next : inquiry.Answer → Care (Except ReconcileError Requeue)}
      (hlook : looks[place]? = some look) (hrest : look.rest = .ask inquiry next)
      (answer : inquiry.Answer) :
      Step settings ⟨world, looks⟩ (.exchange place ⟨inquiry, answer⟩)
        ⟨inquiry.effect answer world, looks.set place { look with rest := next answer }⟩

/-- Something that has happened, with what was before and after it. -/
structure Moment where
  before : Scene
  event : Event
  after : Scene

/-- What has happened since some time. -/
inductive History (settings : Settings) (start : Scene) : List Moment → Scene → Prop
  | start : History settings start [] start
  | step {moments : List Moment} {scene next : Scene} {event : Event}
      (hpast : History settings start moments scene) (hstep : Step settings scene event next) :
      History settings start (moments ++ [⟨scene, event, next⟩]) next

namespace Scene

/-- What the annotation of the record is. -/
def operation? (scene : Scene) : Option Json :=
  operationOf scene.world.record

/-- Looks only ask what they may, and one that is to answer a restore knows of no other request. -/
def Wary (scene : Scene) : Prop :=
  ∀ look ∈ scene.looks, look.rest.Asks (MayAsk look.record) ∧
    (Transition.plan look.record = .enable true → ∀ value, scene.operation? = some value →
      value = .str MigrationStep.restore.name ∨ look.edited = some (some value))

/-- What others have written in the meantime still stands. -/
def Stands (scene : Scene) (value : Json) : Prop :=
  ∀ look ∈ scene.looks, look.edited = some (some value) → scene.operation? = some value

end Scene

namespace Moment

/-- Nobody but others changes the annotation when it has some value. -/
def Keeps (moment : Moment) (value : Json) : Prop :=
  ∀ place exchange, moment.event = .exchange place exchange →
    moment.before.operation? = some value → moment.after.operation? = some value

/-- A look answers a restore, though others have written another value since it has read the
record. -/
def Overtaken (moment : Moment) (value : Json) : Prop :=
  ∃ place key response look,
    moment.event = .exchange place (Care.changeExchange (.merge key annotationChange) response) ∧
      Granted response ∧ moment.before.looks[place]? = some look ∧
        look.edited = some (some value)

end Moment

section Steps

variable {settings : Settings} {scene next : Scene} {event : Event} {value : Json}

/-- The looks after an exchange are those before it, but for what the one is still to ask. -/
theorem exists_look_of_mem_set {looks : List Look} {place : Nat} {look other : Look}
    {rest : Care (Except ReconcileError Requeue)} (hlook : looks[place]? = some look)
    (hmem : other ∈ looks.set place { look with rest := rest }) :
    other ∈ looks ∨ other = { look with rest := rest } ∧ look ∈ looks := by
  rcases List.mem_or_eq_of_mem_set hmem with hold | heq
  · exact Or.inl hold
  · exact Or.inr ⟨heq, List.mem_of_getElem? hlook⟩

/-- An exchange is the next one of a look that is under way, and brings about its effect. -/
theorem Step.exists_look (hstep : Step settings scene event next) {place : Nat}
    {exchange : Exchange Inquiry.Answer} (hevent : event = .exchange place exchange) :
    ∃ look proceed, scene.looks[place]? = some look ∧ look.rest = .ask exchange.1 proceed ∧
      next.world = exchange.1.effect exchange.2 scene.world := by
  cases hstep with
  | edit edited => cases hevent
  | read hstored => cases hevent
  | exchange hlook hrest answer =>
      cases hevent
      exact ⟨_, _, hlook, hrest, rfl⟩

/-- An exchange leaves the annotation alone, or a look answers a restore with it. -/
theorem Step.operation?_exchange (hstep : Step settings scene event next) (hwary : scene.Wary)
    {place : Nat} {exchange : Exchange Inquiry.Answer} (hevent : event = .exchange place exchange) :
    next.operation? = scene.operation? ∨ next.operation? = none ∧
      ∃ key response look, exchange = Care.changeExchange (.merge key annotationChange) response ∧
        Granted response ∧ scene.looks[place]? = some look ∧
          Transition.plan look.record = .enable true := by
  obtain ⟨look, proceed, hlook, hrest, hworld⟩ := hstep.exists_look hevent
  have hasks := (hwary look (List.mem_of_getElem? hlook)).1
  rw [hrest] at hasks
  rw [Scene.operation?, hworld]
  rcases operationOf_effect hasks.1 exchange.2 scene.world with hsame |
    ⟨hnone, hplan, key, response, hexchange, hgranted⟩
  · exact Or.inl hsame
  · exact Or.inr ⟨hnone, key, response, look, hexchange, hgranted, hlook, hplan⟩

/-- The step that answers a restore takes the annotation away. -/
theorem Step.operation?_answered (hstep : Step settings scene event next) {place : Nat}
    {key : ObjectKey} {response : ApiResponse} (hgranted : Granted response)
    (hevent : event = .exchange place
      (Care.changeExchange (.merge key annotationChange) response)) : next.operation? = none := by
  obtain ⟨-, -, -, -, hworld⟩ := hstep.exists_look hevent
  rw [Scene.operation?, hworld]
  exact Inquiry.operationOf_effect_answered hgranted key scene.world

theorem Step.wary (hstep : Step settings scene event next) (hwary : scene.Wary) : next.Wary := by
  intro look hmem
  cases hstep with
  | edit edited =>
      obtain ⟨old, hold, heq⟩ := List.mem_map.mp hmem
      rw [← heq]
      refine ⟨(hwary old hold).1, ?_⟩
      intro _ value hvalue
      exact Or.inr (congrArg some hvalue)
  | @read world looks record hstored =>
      rcases List.mem_append.mp hmem with hold | hnew
      · exact hwary look hold
      · rw [List.mem_singleton.mp hnew]
        refine ⟨mayAsk_care settings record, ?_⟩
        intro hplan value hvalue
        rw [Scene.operation?, hstored.operationOf_of_plan hplan] at hvalue
        exact Or.inl (Option.some.inj hvalue).symm
  | @exchange world looks place known inquiry proceed hlook hrest answer =>
      have hasks := (hwary known (List.mem_of_getElem? hlook)).1
      rw [hrest] at hasks
      -- What the annotation is after the exchange, if anything, it was before.
      have hbefore : ∀ value, operationOf (inquiry.effect answer world).record = some value →
          operationOf world.record = some value := by
        intro value hvalue
        rcases operationOf_effect hasks.1 answer world with hsame | ⟨hnone, -⟩
        · exact hsame.symm.trans hvalue
        · cases hnone.symm.trans hvalue
      rcases exists_look_of_mem_set hlook hmem with hold | ⟨heq, hold⟩
      · refine ⟨(hwary look hold).1, ?_⟩
        intro hplan value hvalue
        exact (hwary look hold).2 hplan value (hbefore value hvalue)
      · rw [heq]
        refine ⟨hasks.2 answer, ?_⟩
        intro hplan value hvalue
        exact (hwary known hold).2 hplan value (hbefore value hvalue)

/-- What others have written stands until a look takes it away. -/
theorem Step.stands (hstep : Step settings scene event next) (hstands : scene.Stands value)
    (hkeeps : Moment.Keeps ⟨scene, event, next⟩ value) : next.Stands value := by
  intro look hmem hedited
  cases hstep with
  | edit edited =>
      obtain ⟨old, -, heq⟩ := List.mem_map.mp hmem
      rw [← heq] at hedited
      exact Option.some.inj hedited
  | read hstored =>
      rcases List.mem_append.mp hmem with hold | hnew
      · exact hstands look hold hedited
      · rw [List.mem_singleton.mp hnew] at hedited
        cases hedited
  | @exchange world looks place known inquiry proceed hlook hrest answer =>
      apply hkeeps place _ rfl
      rcases exists_look_of_mem_set hlook hmem with hold | ⟨heq, hold⟩
      · exact hstands look hold hedited
      · rw [heq] at hedited
        exact hstands known hold hedited

end Steps

namespace History

variable {settings : Settings} {start stop : Scene} {moments : List Moment} {value : Json}

theorem wary (hrun : History settings start moments stop) (hstart : start.looks = []) :
    stop.Wary ∧ ∀ moment ∈ moments,
      moment.before.Wary ∧ Step settings moment.before moment.event moment.after := by
  induction hrun with
  | start => exact ⟨by simp [Scene.Wary, hstart], by simp⟩
  | step hpast hstep ih =>
      refine ⟨hstep.wary ih.1, ?_⟩
      intro moment hmem
      rcases List.mem_append.mp hmem with hold | hnew
      · exact ih.2 moment hold
      · rw [List.mem_singleton.mp hnew]
        exact ⟨ih.1, hstep⟩

/-- As long as no look takes away what others have written, it stands. -/
theorem stands (hrun : History settings start moments stop) (hstart : start.looks = [])
    (hkeeps : ∀ moment ∈ moments, moment.Keeps value) :
    stop.Stands value ∧ ∀ moment ∈ moments, moment.before.Stands value := by
  induction hrun with
  | start => exact ⟨by simp [Scene.Stands, hstart], by simp⟩
  | step hpast hstep ih =>
      obtain ⟨hstands, hall⟩ := ih fun moment hmem => hkeeps moment (List.mem_append_left _ hmem)
      refine ⟨hstep.stands hstands (hkeeps _ (by simp)), ?_⟩
      intro moment hmem
      rcases List.mem_append.mp hmem with hold | hnew
      · exact hall moment hold
      · rw [List.mem_singleton.mp hnew]
        exact hstands

end History

/-- A look takes the annotation away only at the end of a restore.  Whatever else was written there
is kept just as long as nobody writes it while a look is on its way to answer a restore. -/
theorem keeps_iff_not_overtaken {settings : Settings} {start stop : Scene} {moments : List Moment}
    {value : Json} (hrun : History settings start moments stop) (hstart : start.looks = [])
    (hvalue : value ≠ .str MigrationStep.restore.name) :
    ((∀ moment ∈ moments, moment.Keeps value) ↔ ∀ moment ∈ moments, ¬ moment.Overtaken value) ∧
      ∀ moment ∈ moments, ∀ place exchange, moment.event = .exchange place exchange →
        moment.after.operation? = moment.before.operation? ∨ moment.after.operation? = none ∧
          ∃ key response look,
            exchange = Care.changeExchange (.merge key annotationChange) response ∧
              Granted response ∧ moment.before.looks[place]? = some look ∧
                Transition.plan look.record = .enable true := by
  obtain ⟨-, hall⟩ := hrun.wary hstart
  have hexchanged : ∀ moment ∈ moments, ∀ place exchange, moment.event = .exchange place exchange →
      moment.after.operation? = moment.before.operation? ∨ moment.after.operation? = none ∧
        ∃ key response look,
          exchange = Care.changeExchange (.merge key annotationChange) response ∧
            Granted response ∧ moment.before.looks[place]? = some look ∧
              Transition.plan look.record = .enable true := by
    intro moment hmem place exchange hevent
    exact (hall moment hmem).2.operation?_exchange (hall moment hmem).1 hevent
  refine ⟨⟨?_, ?_⟩, hexchanged⟩
  · intro hkeeps moment hmem hovertaken
    obtain ⟨place, key, response, look, hevent, hgranted, hlook, hedited⟩ := hovertaken
    have hstands := (hrun.stands hstart hkeeps).2 moment hmem look
      (List.mem_of_getElem? hlook) hedited
    have hkept := hkeeps moment hmem place _ hevent hstands
    rw [(hall moment hmem).2.operation?_answered hgranted hevent] at hkept
    cases hkept
  · intro hnone moment hmem place exchange hevent hbefore
    rcases hexchanged moment hmem place exchange hevent with hsame |
      ⟨-, key, response, look, hexchange, hgranted, hlook, hplan⟩
    · rw [hsame, hbefore]
    · have hwary := (hall moment hmem).1 look (List.mem_of_getElem? hlook)
      rcases hwary.2 hplan value hbefore with hrestore | hedited
      · exact absurd hrestore hvalue
      · refine absurd ?_ (hnone moment hmem)
        rw [hexchange] at hevent
        exact ⟨place, key, response, look, hevent, hgranted, hlook, hedited⟩

section Sample

/-- A look that is under way can be brought to its end. -/
theorem History.proceed {settings : Settings} {start scene : Scene} {moments : List Moment}
    {place : Nat} {look : Look} {exchanges : List (Exchange Inquiry.Answer)}
    {outcome : Except ReconcileError Requeue} (hrun : History settings start moments scene)
    (hlook : scene.looks[place]? = some look) (hheld : look.rest.Held exchanges outcome) :
    ∃ more stop, History settings start (moments ++ more) stop ∧
      ∀ exchange ∈ exchanges, ∃ moment ∈ more, moment.event = .exchange place exchange ∧
        ∃ rest, moment.before.looks[place]? = some { look with rest := rest } := by
  obtain ⟨record, edited, rest⟩ := look
  induction rest generalizing scene moments exchanges with
  | done result =>
      obtain ⟨hnil, -⟩ := hheld
      exact ⟨[], scene, by rwa [List.append_nil], by simp [hnil]⟩
  | ask inquiry next ih =>
      obtain ⟨answer, others, hexchanges, hheld⟩ := hheld
      obtain ⟨world, looks⟩ := scene
      have hnext := hrun.step (.exchange hlook rfl answer)
      have hplace : (looks.set place ⟨record, edited, next answer⟩)[place]? =
          some ⟨record, edited, next answer⟩ := by
        rw [List.getElem?_set_self (List.getElem?_eq_some_iff.mp hlook).1]
      obtain ⟨more, stop, hstop, hall⟩ := ih answer hnext hplace hheld
      refine ⟨_, stop, by rwa [List.append_assoc] at hstop, ?_⟩
      intro exchange hmem
      rw [hexchanges] at hmem
      rcases List.mem_cons.mp hmem with heq | hlater
      · exact ⟨_, List.mem_cons_self, by rw [heq], _, hlook⟩
      · obtain ⟨moment, hmoment, hrest⟩ := hall exchange hlater
        exact ⟨moment, List.mem_cons_of_mem _ hmoment, hrest⟩

/-- A record as it is kept when a step of a migration is asked for. -/
def TenantRecord.sampleAskingStored (step : MigrationStep) : Json :=
  Json.object
    [("metadata", Json.object
      [("name", .str "rsyslog-relp"), ("namespace", .str "tenant"),
       ("finalizers", Json.texts [finalizerName]),
       ("annotations", Json.object [(TenantRecord.operationAnnotation, .str step.name)])]),
     ("spec", Json.object [("providerConfig", sampleDocument)])]

/-- The record that is read then. -/
def TenantRecord.sampleAsking (step : MigrationStep) : TenantRecord :=
  ⟨⟨some "rsyslog-relp", some "tenant", none, [(TenantRecord.operationAnnotation, step.name)],
    [finalizerName], false⟩, some sampleDocument, none⟩

theorem TenantRecord.sampleAsking_storedAs :
    (sampleAsking .restore).StoredAs (sampleAskingStored .restore) :=
  ⟨_, rfl, by decide +kernel⟩

theorem TenantRecord.sampleAsking_named :
    (sampleAsking .restore).Named "tenant" "rsyslog-relp" :=
  ⟨rfl, rfl, by decide⟩

/-- A migration that is asked for while a restore is under way is forgotten. -/
theorem sample_forgets_migration :
    ∃ moments stop, History .standard
        ⟨⟨TenantRecord.sampleAskingStored .restore, .nothing⟩, []⟩ moments stop ∧
      ¬ ∀ moment ∈ moments, moment.Keeps (.str MigrationStep.migrate.name) := by
  have hstart : History .standard
      ⟨⟨TenantRecord.sampleAskingStored .restore, .nothing⟩, []⟩ [] _ := .start
  have hread := hstart.step (.read TenantRecord.sampleAsking_storedAs)
  have hedit := hread.step (.edit (TenantRecord.sampleAskingStored .migrate))
  have hguarded : (TenantRecord.sampleAsking .restore).Guarded := by decide
  obtain ⟨requeue, hdone⟩ := exists_run_care TenantRecord.sampleAsking_named hguarded
    rfl (tenantConfig_eq_sampleGrave rfl) TenantConfig.sampleGrave_valid
    TenantRecord.sampleAsking_storedAs.granted
  have hheld := Dialogue.held_run (Inquiry.unhindered (some .sample)
    (TenantRecord.sampleAskingStored .restore)) (care .standard (.sampleAsking .restore)) ()
  rw [hdone] at hheld
  obtain ⟨response, hmem, hgranted⟩ := exists_answered TenantRecord.sampleAsking_named hguarded
    rfl hheld
  obtain ⟨more, stop, hrun, hall⟩ := hedit.proceed List.getElem?_cons_zero hheld
  obtain ⟨moment, hmoment, hevent, rest, hlook⟩ := hall _ hmem
  refine ⟨_, stop, hrun, ?_⟩
  rw [(keeps_iff_not_overtaken hrun rfl (by decide)).1]
  intro hnone
  exact hnone moment (List.mem_append_right _ hmoment)
    ⟨0, _, response, _, hevent, hgranted, hlook, rfl⟩

end Sample

end LogForwarding
