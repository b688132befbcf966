import LogForwarding.Proofs.Lockstep
import LogForwarding.Proofs.Objects
import LogForwarding.Proofs.Scope

/-!
Tenants of different namespaces do not get in each other's way.  A look at a record neither writes
what belongs to other namespaces nor depends on it, so looks at records of different namespaces come
to the same end however their requests follow each other.
-/

namespace LogForwarding

namespace Dialogue

variable {Question : Type} {Answer : Question → Type} {α σ : Type}

/-- What no allowed question changes is as before when a dialogue is over. -/
theorem Asks.run_keeps {answer : (question : Question) → σ → Answer question × σ}
    {allowed : Question → Prop} {kept : σ → Prop} {dialogue : Dialogue Question Answer α}
    (hasks : dialogue.Asks allowed)
    (hstep : ∀ question, allowed question → ∀ world, kept world → kept (answer question world).2)
    {world : σ} (hkept : kept world) : kept (dialogue.run answer world).2 := by
  induction dialogue generalizing world with
  | done result => exact hkept
  | ask question next ih => exact ih _ (hasks.2 _) (hstep question hasks.1 world hkept)

end Dialogue

namespace ApiServer

variable {Cell : Type} {server : ApiServer Cell} {record : TenantRecord}

/-- A question of a look changes nothing but what the look owns. -/
theorem answer_unowned (instant : Instant) {question : ApiQuestion}
    (hconcerns : question.Concerns record) (cells : ObjectKey → Cell) {key : ObjectKey}
    (howns : ¬ record.Owns key) : (server.answer instant question cells).2 key = cells key := by
  have hcells : (server.answer instant question cells).2 = cells ∨
      ∃ request, question.request? = some request ∧
        (server.answer instant question cells).2 = (server.serve request cells).2 :=
    answer_cells instant question cells
  rcases hcells with hsame | ⟨request, hrequest, hleft⟩
  · rw [hsame]
  · rw [hleft]
    obtain ⟨other, hother, -, hwrite⟩ := hconcerns request hrequest
    rw [serve_of_key? hother]
    by_cases hkey : key = other
    · subst hkey
      obtain rfl := hwrite.resolve_right howns
      rw [server.respond_get]
      exact Function.update_self ..
    · exact Function.update_of_ne hkey _ _

/-- Two states agree on all that a look sees. -/
def Agree (record : TenantRecord) (cells others : ObjectKey → Cell) : Prop :=
  ∀ key, record.Sees key → cells key = others key

theorem Agree.serve {cells others : ObjectKey → Cell} (hagree : Agree record cells others)
    {request : ApiRequest} (hconcerns : request.Concerns record) :
    (server.serve request cells).1 = (server.serve request others).1 ∧
      Agree record (server.serve request cells).2 (server.serve request others).2 := by
  obtain ⟨key, hkey, hsees, -⟩ := hconcerns
  rw [serve_of_key? hkey, serve_of_key? hkey, hagree key hsees]
  refine ⟨rfl, fun other hother => ?_⟩
  dsimp only
  by_cases heq : other = key
  · rw [heq, Function.update_self, Function.update_self]
  · rw [Function.update_of_ne heq, Function.update_of_ne heq, hagree other hother]

end ApiServer

open Controller ApiServer

/-- A worker that looks after a record: how much it has asked, and what is still to be done. -/
structure Worker where
  asked : Nat
  rest : Session (Except ReconcileError Requeue)

/-- Workers that share an API server. -/
structure Site (ι Cell : Type) where
  cells : ObjectKey → Cell
  workers : ι → Worker

namespace Worker

variable {Cell ι : Type} (server : ApiServer Cell)

/-- A worker that is about to look after a record. -/
def begin (settings : Settings) (record : TenantRecord) : Worker :=
  ⟨0, reconcile settings record⟩

/-- What a worker comes to when it is left alone, and what it leaves. -/
def alone (instants : Nat → Instant) (worker : Worker) (cells : ObjectKey → Cell) :
    Except ReconcileError Requeue × (ObjectKey → Cell) :=
  let held := worker.rest.run (server.answerTimed instants) (worker.asked, cells)
  (held.1, held.2.2)

/-- What is left when workers do their work one after the other. -/
def inTurn (instants : ι → Nat → Instant) (workers : ι → Worker) :
    List ι → (ObjectKey → Cell) → (ObjectKey → Cell)
  | [], cells => cells
  | i :: rest, cells => inTurn instants workers rest ((workers i).alone server (instants i) cells).2

/-- A worker asks only what concerns a record. -/
def Minds (record : TenantRecord) (worker : Worker) : Prop :=
  worker.rest.Asks (ApiQuestion.Concerns record)

variable {server} {record : TenantRecord} {worker : Worker} {instants : Nat → Instant}

theorem Minds.alone_unowned (hminds : worker.Minds record) (cells : ObjectKey → Cell)
    {key : ObjectKey} (howns : ¬ record.Owns key) :
    (worker.alone server instants cells).2 key = cells key := by
  let kept (state : Nat × (ObjectKey → Cell)) : Prop := state.2 key = cells key
  have hstep (question : ApiQuestion) (hconcerns : question.Concerns record)
      (state : Nat × (ObjectKey → Cell)) (hkept : kept state) :
      kept (server.answerTimed instants question state).2 :=
    (answer_unowned (instants state.1) hconcerns state.2 howns).trans hkept
  have hstart : kept (worker.asked, cells) := rfl
  exact hminds.run_keeps hstep hstart

/-- What a worker comes to, and what it leaves of all that it sees, rests on what it sees only. -/
theorem Minds.alone_agree (hminds : worker.Minds record) {cells others : ObjectKey → Cell}
    (hagree : Agree record cells others) :
    (worker.alone server instants cells).1 = (worker.alone server instants others).1 ∧
      Agree record (worker.alone server instants cells).2
        (worker.alone server instants others).2 := by
  have hblind : worker.rest.Blind (ApiQuestion.Alike fun _ => Eq) := by
    refine (Dialogue.Asks.of_forall (fun question answer other halike => ?_) _).blind
    exact ApiQuestion.Alike.eq halike fun _ _ _ _ heq => heq
  obtain ⟨hresult, -, hleft⟩ := run_alike hblind hminds (fun _ _ => rfl)
    (fun _ hconcerns _ _ hagree => hagree.serve hconcerns) instants worker.asked hagree
  exact ⟨hresult, hleft⟩

end Worker

namespace Site

variable {Cell ι : Type} [DecidableEq ι] (server : ApiServer Cell)
  (instants : ι → Nat → Instant)

/-- A worker asks its next question, unless it is done. -/
def turn (site : Site ι Cell) (i : ι) : Site ι Cell :=
  match (site.workers i).rest with
  | .done _ => site
  | .ask question next =>
      let answered := server.answer (instants i (site.workers i).asked) question site.cells
      ⟨answered.2, Function.update site.workers i ⟨(site.workers i).asked + 1, next answered.1⟩⟩

/-- Workers ask in some order. -/
def turns (site : Site ι Cell) (order : List ι) : Site ι Cell :=
  order.foldl (turn server instants) site

/-- All workers are done. -/
def Finished (site : Site ι Cell) : Prop :=
  ∀ i, ∃ result, (site.workers i).rest = .done result

variable {server instants} {records : ι → TenantRecord} {site start : Site ι Cell} {i j : ι}

theorem turn_of_done {result : Except ReconcileError Requeue}
    (hdone : (site.workers i).rest = .done result) : site.turn server instants i = site := by
  rw [turn, hdone]

theorem turn_of_ask {question : ApiQuestion}
    {next : question.Answer → Session (Except ReconcileError Requeue)}
    (hask : (site.workers i).rest = .ask question next) :
    let answered := server.answer (instants i (site.workers i).asked) question site.cells
    site.turn server instants i = ⟨answered.2,
      Function.update site.workers i ⟨(site.workers i).asked + 1, next answered.1⟩⟩ := by
  rw [turn, hask]

theorem turn_workers_of_ne (hne : j ≠ i) :
    (site.turn server instants i).workers j = site.workers j := by
  cases hrest : (site.workers i).rest with
  | done result => rw [turn_of_done hrest]
  | ask question next =>
      rw [turn_of_ask hrest]
      exact Function.update_of_ne hne _ _

/-- A worker that asks is on its way to what it would come to anyway. -/
theorem alone_turn :
    ((site.turn server instants i).workers i).alone server (instants i)
        (site.turn server instants i).cells =
      (site.workers i).alone server (instants i) site.cells := by
  cases hrest : (site.workers i).rest with
  | done result => rw [turn_of_done hrest]
  | ask question next =>
      rw [turn_of_ask hrest, Worker.alone, Worker.alone, hrest, Dialogue.run_ask]
      dsimp only
      rw [Function.update_self]
      rfl

theorem turn_minds (hminds : ∀ i, (site.workers i).Minds (records i)) (j : ι) :
    ((site.turn server instants i).workers j).Minds (records j) := by
  by_cases hne : j = i
  · subst hne
    cases hrest : (site.workers j).rest with
    | done result =>
        rw [turn_of_done hrest]
        exact hminds j
    | ask question next =>
        have hasks := hminds j
        rw [Worker.Minds, hrest] at hasks
        rw [turn_of_ask hrest]
        dsimp only
        rw [Function.update_self]
        exact hasks.2 _
  · rw [turn_workers_of_ne hne]
    exact hminds j

theorem turn_unowned (hminds : (site.workers i).Minds (records i)) {key : ObjectKey}
    (howns : ¬ (records i).Owns key) :
    (site.turn server instants i).cells key = site.cells key := by
  cases hrest : (site.workers i).rest with
  | done result => rw [turn_of_done hrest]
  | ask question next =>
      rw [Worker.Minds, hrest] at hminds
      rw [turn_of_ask hrest]
      exact answer_unowned _ hminds.1 _ howns

end Site

section Apart

variable {Cell ι : Type} {server : ApiServer Cell}
  {instants : ι → Nat → Instant} {records : ι → TenantRecord} {site start : Site ι Cell}

/-- No two records are of one namespace. -/
def Apart (records : ι → TenantRecord) : Prop :=
  ∀ i j, i ≠ j → ∀ ns, (records i).metadata.ns = some ns → (records j).metadata.ns ≠ some ns

theorem Apart.not_owns (hapart : Apart records) {i j : ι} (hne : i ≠ j) {key : ObjectKey}
    (hsees : (records i).Sees key) : ¬ (records j).Owns key := by
  intro howns
  obtain ⟨ns, hns, hkey⟩ := howns.exists_ns
  obtain ⟨own, hown, hsame | rfl⟩ := hsees
  · obtain rfl := Option.some.inj (hsame.symm.trans hkey)
    exact hapart i j hne own hown hns
  · cases hkey

/-- Every worker will still come to what it would have come to from the start, if it had been alone;
and what nobody owns is as it was. -/
structure Site.Underway (server : ApiServer Cell) (instants : ι → Nat → Instant)
    (records : ι → TenantRecord) (start site : Site ι Cell) : Prop where
  minds : ∀ i, (site.workers i).Minds (records i)
  result : ∀ i, ((site.workers i).alone server (instants i) site.cells).1 =
    ((start.workers i).alone server (instants i) start.cells).1
  left : ∀ i, Agree (records i) ((site.workers i).alone server (instants i) site.cells).2
    ((start.workers i).alone server (instants i) start.cells).2
  unowned : ∀ key, (∀ i, ¬ (records i).Owns key) → site.cells key = start.cells key

/-- When all are done, each has come to its own result and has left what it sees as it would have. -/
theorem Site.Underway.of_finished (hunderway : Underway server instants records start site)
    (hfinished : site.Finished) (i : ι) :
    (site.workers i).rest =
        .done ((start.workers i).alone server (instants i) start.cells).1 ∧
      Agree (records i) site.cells ((start.workers i).alone server (instants i) start.cells).2 := by
  obtain ⟨result, hdone⟩ := hfinished i
  have hresult := hunderway.result i
  have hleft := hunderway.left i
  rw [Worker.alone, hdone, Dialogue.run_done] at hresult hleft
  rw [hdone, ← hresult]
  exact ⟨rfl, hleft⟩

section InTurn

variable {workers : ι → Worker} (hapart : Apart records)
  (hminds : ∀ i, (workers i).Minds (records i))

include hminds

/-- What is owned by none of those whose turn it was is as before. -/
theorem Worker.inTurn_unowned {whole : List ι} {key : ObjectKey}
    (hunowned : ∀ i ∈ whole, ¬ (records i).Owns key) (cells : ObjectKey → Cell) :
    inTurn server instants workers whole cells key = cells key := by
  induction whole generalizing cells with
  | nil => rfl
  | cons i rest ih =>
      rw [inTurn, ih fun j hmem => hunowned j (List.mem_cons_of_mem i hmem)]
      exact (hminds i).alone_unowned cells (hunowned i List.mem_cons_self)

include hapart

/-- Those whose turn it was before have changed nothing that a worker sees. -/
theorem Worker.inTurn_agree {whole : List ι} {i : ι} (hmem : i ∉ whole)
    (cells : ObjectKey → Cell) :
    Agree (records i) (inTurn server instants workers whole cells) cells := by
  intro key hsees
  refine inTurn_unowned hminds (fun j hj => hapart.not_owns ?_ hsees) cells
  rintro rfl
  exact hmem hj

/-- A worker whose turn it was has left what it sees as if it had been alone. -/
theorem Worker.inTurn_alone {whole : List ι} (hnodup : whole.Nodup) {i : ι} (hmem : i ∈ whole)
    (cells : ObjectKey → Cell) :
    Agree (records i) (inTurn server instants workers whole cells)
      ((workers i).alone server (instants i) cells).2 := by
  induction whole generalizing cells with
  | nil => cases hmem
  | cons j rest ih =>
      obtain ⟨hnone, hrest⟩ := List.nodup_cons.mp hnodup
      rw [inTurn]
      by_cases hij : i = j
      · subst hij
        exact inTurn_agree hapart hminds hnone _
      · intro key hsees
        have hin := (List.mem_cons.mp hmem).resolve_left hij
        rw [ih hrest hin _ key hsees]
        have hsame : Agree (records i) ((workers j).alone server (instants j) cells).2 cells :=
          fun key hsees => (hminds j).alone_unowned cells (hapart.not_owns hij hsees)
        exact ((hminds i).alone_agree hsame).2 key hsees

end InTurn

end Apart

section Turns

variable {Cell ι : Type} [DecidableEq ι] {server : ApiServer Cell}
  {instants : ι → Nat → Instant} {records : ι → TenantRecord} {site start : Site ι Cell}

theorem Site.Underway.turn (hapart : Apart records)
    (hunderway : Underway server instants records start site) (i : ι) :
    Underway server instants records start (site.turn server instants i) := by
  have halone (j : ι) :
      (((site.turn server instants i).workers j).alone server (instants j)
          (site.turn server instants i).cells).1 =
        ((site.workers j).alone server (instants j) site.cells).1 ∧
      Agree (records j) (((site.turn server instants i).workers j).alone server (instants j)
          (site.turn server instants i).cells).2
        ((site.workers j).alone server (instants j) site.cells).2 := by
    by_cases hne : j = i
    · subst hne
      rw [alone_turn]
      exact ⟨rfl, fun _ _ => rfl⟩
    · rw [turn_workers_of_ne hne]
      refine (hunderway.minds j).alone_agree fun key hsees => ?_
      exact turn_unowned (hunderway.minds i) (hapart.not_owns hne hsees)
  refine ⟨turn_minds hunderway.minds, fun j => ?_, fun j key hsees => ?_, fun key hunowned => ?_⟩
  · exact (halone j).1.trans (hunderway.result j)
  · exact ((halone j).2 key hsees).trans (hunderway.left j key hsees)
  · exact (turn_unowned (hunderway.minds i) (hunowned i)).trans (hunderway.unowned key hunowned)

theorem Site.Underway.turns (hapart : Apart records)
    (hunderway : Underway server instants records start site) (order : List ι) :
    Underway server instants records start (site.turns server instants order) := by
  induction order generalizing site with
  | nil => exact hunderway
  | cons i order ih => exact ih (hunderway.turn hapart i)

/-- A worker is done after some turns of its own. -/
theorem Site.exists_done (site : Site ι Cell) (i : ι) :
    ∃ order, (∃ result, ((site.turns server instants order).workers i).rest = .done result) ∧
      ∀ j, j ≠ i → (site.turns server instants order).workers j = site.workers j := by
  generalize hrest : (site.workers i).rest = rest
  induction rest generalizing site with
  | done result => exact ⟨[], ⟨result, hrest⟩, fun _ _ => rfl⟩
  | ask question next ih =>
      have hrest' : ((site.turn server instants i).workers i).rest =
          next (server.answer (instants i (site.workers i).asked) question site.cells).1 := by
        rw [turn_of_ask hrest]
        dsimp only
        rw [Function.update_self]
      obtain ⟨order, hdone, hothers⟩ := ih _ (site.turn server instants i) hrest'
      refine ⟨i :: order, hdone, fun j hne => ?_⟩
      exact (hothers j hne).trans (turn_workers_of_ne hne)

/-- There is an order in which all workers come to an end. -/
theorem Site.exists_finished {whole : List ι} (hall : ∀ i, i ∈ whole) (site : Site ι Cell) :
    ∃ order, (site.turns server instants order).Finished := by
  have hpart (part : List ι) : ∃ order, ∀ i ∈ part,
      ∃ result, ((site.turns server instants order).workers i).rest = .done result := by
    induction part with
    | nil => exact ⟨[], by simp⟩
    | cons i rest ih =>
        obtain ⟨order, hdone⟩ := ih
        obtain ⟨more, hlast, hothers⟩ := (site.turns server instants order).exists_done i
        refine ⟨order ++ more, fun j hmem => ?_⟩
        rw [Site.turns, List.foldl_append]
        by_cases hij : j = i
        · rw [hij]
          exact hlast
        · have hj := hothers j hij
          rw [Site.turns, Site.turns] at hj
          rw [hj]
          exact hdone j ((List.mem_cons.mp hmem).resolve_left hij)
  obtain ⟨order, hdone⟩ := hpart whole
  exact ⟨order, fun i => hdone i (hall i)⟩

/-- A look at a record asks only for what it sees, writes only what it owns, and what comes of it
rests on what it sees.  So when no two records are of one namespace, workers that look after them come
to the same results and leave the same objects in whatever order they ask, and as if one of them had
looked after its record when the one before was done. -/
theorem tenants_are_independent (server : ApiServer Cell) (settings : Settings)
    (records : ι → TenantRecord) (instants : ι → Nat → Instant) :
    let workers (i : ι) : Worker := .begin settings (records i)
    let alone (i : ι) (cells : ObjectKey → Cell) := (workers i).alone server (instants i) cells
    (∀ i cells,
      (∀ question ∈ (reconcile settings (records i)).questionsWith
          (server.answerTimed (instants i)) (0, cells), question.Concerns (records i)) ∧
      ∀ key, ¬ (records i).Owns key → (alone i cells).2 key = cells key) ∧
    (∀ i cells others, Agree (records i) cells others →
      (alone i cells).1 = (alone i others).1 ∧
        Agree (records i) (alone i cells).2 (alone i others).2) ∧
    (Apart records → ∀ whole : List ι, whole.Nodup → (∀ i, i ∈ whole) → ∀ cells,
      (∃ order, (Site.turns server instants ⟨cells, workers⟩ order).Finished) ∧
      (∀ before i after, whole = before ++ i :: after →
        (alone i (Worker.inTurn server instants workers before cells)).1 = (alone i cells).1) ∧
      ∀ order, (Site.turns server instants ⟨cells, workers⟩ order).Finished →
        (Site.turns server instants ⟨cells, workers⟩ order).cells =
            Worker.inTurn server instants workers whole cells ∧
          ∀ i, ((Site.turns server instants ⟨cells, workers⟩ order).workers i).rest =
            .done (alone i cells).1) := by
  intro workers alone
  have hminds (i : ι) : (workers i).Minds (records i) := asks_concerns settings (records i)
  refine ⟨fun i cells => ⟨fun question hmem => ?_, fun key => (hminds i).alone_unowned cells⟩,
    fun i cells others => (hminds i).alone_agree, fun hapart whole hnodup hall cells => ?_⟩
  · obtain ⟨exchange, hexchange, rfl⟩ := List.mem_map.mp hmem
    exact (hminds i).of_held (Dialogue.held_run _ _ _) exchange hexchange
  · refine ⟨Site.exists_finished hall _, ?_, fun order hfinished => ?_⟩
    · rintro before i after rfl
      have hmem : i ∉ before := by
        have hdisjoint := (List.nodup_append.mp hnodup).2.2
        exact fun hin => hdisjoint i hin i List.mem_cons_self rfl
      exact ((hminds i).alone_agree (Worker.inTurn_agree hapart hminds hmem cells)).1
    · have hstart : Site.Underway server instants records ⟨cells, workers⟩ ⟨cells, workers⟩ :=
        ⟨hminds, fun _ => rfl, fun _ _ _ => rfl, fun _ _ => rfl⟩
      have hunderway := hstart.turns hapart order
      refine ⟨funext fun key => ?_, fun i => (hunderway.of_finished hfinished i).1⟩
      by_cases howned : ∃ i, (records i).Owns key
      · obtain ⟨i, howns⟩ := howned
        have hleft := (hunderway.of_finished hfinished i).2 key howns.sees
        exact hleft.trans
          (Worker.inTurn_alone hapart hminds hnodup (hall i) cells key howns.sees).symm
      · rw [not_exists] at howned
        exact (hunderway.unowned key howned).trans
          (Worker.inTurn_unowned hminds (fun i _ => howned i) cells).symm

/-- The sample record, and one like it of another namespace. -/
def TenantRecord.sampleOf (isOther : Bool) : TenantRecord :=
  { sample false with
    metadata := { (sample false).metadata with ns := some (if isOther then "other" else "tenant") } }

theorem TenantRecord.sampleOf_apart : Apart sampleOf := by
  intro i j hne ns hns hother
  obtain rfl := Option.some.inj hns
  cases i <;> cases j <;> first | exact hne rfl | exact absurd hother (by decide)

/-- Those two can be looked after in either order, and at the same time. -/
theorem TenantRecord.sampleOf_independent :
    Apart sampleOf ∧
    let workers (isOther : Bool) : Worker := .begin .standard (sampleOf isOther)
    let calm (_ : Bool) (_ : Nat) : Instant := .calm
    ∃ order, (Site.turns ApiServer.plain calm ⟨fun _ => none, workers⟩ order).Finished ∧
      (Site.turns ApiServer.plain calm ⟨fun _ => none, workers⟩ order).cells =
        Worker.inTurn ApiServer.plain calm workers [false, true] (fun _ => none) ∧
      (Site.turns ApiServer.plain calm ⟨fun _ => none, workers⟩ order).cells =
        Worker.inTurn ApiServer.plain calm workers [true, false] (fun _ => none) := by
  refine ⟨sampleOf_apart, ?_⟩
  intro workers calm
  obtain ⟨-, -, hwhole⟩ := tenants_are_independent ApiServer.plain .standard sampleOf calm
  obtain ⟨⟨order, hfinished⟩, -, hfirst⟩ :=
    hwhole sampleOf_apart [false, true] (by decide) (by decide) fun _ => none
  obtain ⟨-, -, hsecond⟩ :=
    hwhole sampleOf_apart [true, false] (by decide) (by decide) fun _ => none
  exact ⟨order, hfinished, (hfirst order hfinished).1, (hsecond order hfinished).1⟩

end Turns

end LogForwarding
