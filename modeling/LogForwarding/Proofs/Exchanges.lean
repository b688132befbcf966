import LogForwarding.Reconcile.Dialogue

/-!
Of which exchanges a dialogue can consist, whatever it is answered, and what the exchanges bring
about in a world that changes with them.
-/

namespace LogForwarding

/-- A question with its answer. -/
abbrev Exchange {Question : Type} (Answer : Question → Type) : Type :=
  (question : Question) × Answer question

namespace Dialogue

variable {Question : Type} {Answer : Question → Type} {α β σ : Type}

/-- A dialogue can consist of these exchanges and end with this result. -/
def Held : Dialogue Question Answer α → List (Exchange Answer) → α → Prop
  | .done result, exchanges, outcome => exchanges = [] ∧ outcome = result
  | .ask question next, exchanges, outcome =>
      ∃ answer rest, exchanges = ⟨question, answer⟩ :: rest ∧ (next answer).Held rest outcome

@[simp] theorem held_done {result outcome : α} {exchanges : List (Exchange Answer)} :
    (Dialogue.done result).Held exchanges outcome ↔ exchanges = [] ∧ outcome = result :=
  Iff.rfl

theorem held_query {question : Question} {exchanges : List (Exchange Answer)}
    {outcome : Answer question} :
    (query question).Held exchanges outcome ↔ exchanges = [⟨question, outcome⟩] := by
  constructor
  · rintro ⟨answer, rest, rfl, rfl, rfl⟩
    rfl
  · rintro rfl
    exact ⟨outcome, [], rfl, rfl, rfl⟩

/-- The exchanges of two dialogues, one after the other, are those of the first and then those of
the second. -/
theorem held_bind {dialogue : Dialogue Question Answer α}
    {f : α → Dialogue Question Answer β} {exchanges : List (Exchange Answer)} {outcome : β} :
    (dialogue >>= f).Held exchanges outcome ↔
      ∃ first rest middle, exchanges = first ++ rest ∧ dialogue.Held first middle ∧
        (f middle).Held rest outcome := by
  induction dialogue generalizing exchanges with
  | done result =>
      constructor
      · intro hheld
        exact ⟨[], exchanges, result, rfl, ⟨rfl, rfl⟩, hheld⟩
      · rintro ⟨first, rest, middle, rfl, ⟨rfl, rfl⟩, hheld⟩
        exact hheld
  | ask question next ih =>
      constructor
      · rintro ⟨answer, tail, rfl, hheld⟩
        obtain ⟨first, rest, middle, rfl, hfirst, hrest⟩ := (ih answer).mp hheld
        exact ⟨_, rest, middle, rfl, ⟨answer, first, rfl, hfirst⟩, hrest⟩
      · rintro ⟨first, rest, middle, rfl, ⟨answer, tail, rfl, hfirst⟩, hrest⟩
        exact ⟨answer, tail ++ rest, rfl, (ih answer).mpr ⟨tail, rest, middle, rfl, hfirst, hrest⟩⟩

/-- Which exchanges belong to a dialogue is known from where they begin. -/
theorem Held.unique {dialogue : Dialogue Question Answer α} {first other : List (Exchange Answer)}
    {result outcome : α} (hheld : dialogue.Held first result) (hother : dialogue.Held other outcome)
    {rest more : List (Exchange Answer)} (heq : first ++ rest = other ++ more) :
    first = other ∧ result = outcome := by
  induction dialogue generalizing first other with
  | done found =>
      obtain ⟨hfirst, hresult⟩ := hheld
      obtain ⟨hsecond, houtcome⟩ := hother
      exact ⟨hfirst.trans hsecond.symm, hresult.trans houtcome.symm⟩
  | ask question next ih =>
      obtain ⟨answer, tail, hfirst, hheld⟩ := hheld
      obtain ⟨reply, others, hsecond, hother⟩ := hother
      rw [hfirst, hsecond] at heq
      obtain ⟨hanswer, htail⟩ := List.cons.inj heq
      obtain ⟨-, hreply⟩ := Sigma.mk.inj hanswer
      rw [← eq_of_heq hreply] at hother hsecond
      obtain ⟨hsame, hresult⟩ := ih answer hheld hother htail
      exact ⟨by rw [hfirst, hsecond, hsame], hresult⟩

/-- The exchanges of a dialogue that is held with a world. -/
def exchangesWith (answer : (question : Question) → σ → Answer question × σ) :
    Dialogue Question Answer α → σ → List (Exchange Answer)
  | .done _, _ => []
  | .ask question next, world =>
      ⟨question, (answer question world).1⟩ ::
        (next (answer question world).1).exchangesWith answer (answer question world).2

/-- To hold a dialogue with a world is one of the ways in which it can be held. -/
theorem held_run (answer : (question : Question) → σ → Answer question × σ)
    (dialogue : Dialogue Question Answer α) (world : σ) :
    dialogue.Held (dialogue.exchangesWith answer world) (dialogue.run answer world).1 := by
  induction dialogue generalizing world with
  | done result => exact ⟨rfl, rfl⟩
  | ask question next ih => exact ⟨_, _, rfl, ih _ _⟩

theorem exists_answer_of_mem_exchangesWith
    {answer : (question : Question) → σ → Answer question × σ}
    {dialogue : Dialogue Question Answer α} {world : σ} {exchange : Exchange Answer}
    (hmem : exchange ∈ dialogue.exchangesWith answer world) :
    ∃ world, exchange.2 = (answer exchange.1 world).1 := by
  induction dialogue generalizing world with
  | done result => cases hmem
  | ask question next ih =>
      rcases List.mem_cons.mp hmem with rfl | hmem
      · exact ⟨world, rfl⟩
      · exact ih _ hmem

section Interpretation

variable {Question' : Type} {Answer' : Question' → Type}

/-- Some exchanges lie one behind the other in which the answers of others are found. -/
def Found (find : (question : Question) → Dialogue Question' Answer' (Answer question)) :
    List (Exchange Answer) → List (Exchange Answer') → Prop
  | [], inner => inner = []
  | ⟨question, answer⟩ :: rest, inner =>
      ∃ first others, inner = first ++ others ∧ (find question).Held first answer ∧
        Found find rest others

/-- The exchanges of an interpreted dialogue are those in which its answers are found. -/
theorem held_interpret
    {find : (question : Question) → Dialogue Question' Answer' (Answer question)}
    {dialogue : Dialogue Question Answer α} {inner : List (Exchange Answer')} {outcome : α} :
    (dialogue.interpret find).Held inner outcome ↔
      ∃ exchanges, dialogue.Held exchanges outcome ∧ Found find exchanges inner := by
  induction dialogue generalizing inner with
  | done result =>
      constructor
      · rintro ⟨rfl, rfl⟩
        exact ⟨[], ⟨rfl, rfl⟩, rfl⟩
      · rintro ⟨exchanges, ⟨rfl, rfl⟩, hfound⟩
        exact ⟨hfound, rfl⟩
  | ask question next ih =>
      change ((find question) >>= fun answer => (next answer).interpret find).Held inner outcome ↔ _
      rw [held_bind]
      constructor
      · rintro ⟨first, others, answer, rfl, hfirst, hothers⟩
        obtain ⟨rest, hrest, hfound⟩ := (ih answer).mp hothers
        exact ⟨⟨question, answer⟩ :: rest, ⟨answer, rest, rfl, hrest⟩,
          first, others, rfl, hfirst, hfound⟩
      · rintro ⟨exchanges, ⟨answer, rest, rfl, hrest⟩, first, others, rfl, hfirst, hfound⟩
        exact ⟨first, others, answer, rfl, hfirst, (ih answer).mpr ⟨rest, hrest, hfound⟩⟩

theorem found_append
    {find : (question : Question) → Dialogue Question' Answer' (Answer question)}
    {first rest : List (Exchange Answer)} {inner : List (Exchange Answer')} :
    Found find (first ++ rest) inner ↔
      ∃ part others, inner = part ++ others ∧ Found find first part ∧ Found find rest others := by
  induction first generalizing inner with
  | nil =>
      constructor
      · intro hfound
        exact ⟨[], inner, rfl, rfl, hfound⟩
      · rintro ⟨part, others, rfl, rfl, hfound⟩
        exact hfound
  | cons exchange tail ih =>
      constructor
      · rintro ⟨asked, behind, rfl, hasked, hbehind⟩
        obtain ⟨part, others, rfl, hpart, hothers⟩ := ih.mp hbehind
        exact ⟨asked ++ part, others, by simp, ⟨asked, part, rfl, hasked, hpart⟩, hothers⟩
      · rintro ⟨_, others, rfl, ⟨asked, part, rfl, hasked, hpart⟩, hothers⟩
        exact ⟨asked, part ++ others, by simp, hasked, ih.mpr ⟨part, others, rfl, hpart, hothers⟩⟩

/-- What lies behind some exchanges lies behind one of them. -/
theorem Found.exists_of_mem
    {find : (question : Question) → Dialogue Question' Answer' (Answer question)}
    {exchanges : List (Exchange Answer)} {inner : List (Exchange Answer')}
    (hfound : Found find exchanges inner) {asked : Exchange Answer'} (hmem : asked ∈ inner) :
    ∃ exchange ∈ exchanges, ∃ part, (find exchange.1).Held part exchange.2 ∧ asked ∈ part := by
  induction exchanges generalizing inner with
  | nil =>
      obtain rfl := hfound
      cases hmem
  | cons exchange rest ih =>
      obtain ⟨first, others, rfl, hfirst, hothers⟩ := hfound
      rcases List.mem_append.mp hmem with hmem | hmem
      · exact ⟨exchange, List.mem_cons_self, first, hfirst, hmem⟩
      · obtain ⟨other, hother, hpart⟩ := ih hothers hmem
        exact ⟨other, List.mem_cons_of_mem exchange hother, hpart⟩

/-- When every question is passed on, so are the exchanges. -/
theorem held_interpret_query {embed : Question → Question'}
    {dialogue : Dialogue Question (fun question => Answer' (embed question)) α}
    {inner : List (Exchange Answer')} {outcome : α} :
    (dialogue.interpret fun question => query (embed question)).Held inner outcome ↔
      ∃ exchanges, dialogue.Held exchanges outcome ∧
        inner = exchanges.map fun exchange => ⟨embed exchange.1, exchange.2⟩ := by
  induction dialogue generalizing inner with
  | done result =>
      constructor
      · rintro ⟨rfl, rfl⟩
        exact ⟨[], ⟨rfl, rfl⟩, rfl⟩
      · rintro ⟨exchanges, ⟨rfl, rfl⟩, rfl⟩
        exact ⟨rfl, rfl⟩
  | ask question next ih =>
      constructor
      · rintro ⟨answer, others, rfl, hothers⟩
        obtain ⟨rest, hrest, rfl⟩ := (ih answer).mp hothers
        exact ⟨⟨question, answer⟩ :: rest, ⟨answer, rest, rfl, hrest⟩, rfl⟩
      · rintro ⟨exchanges, ⟨answer, rest, rfl, hrest⟩, rfl⟩
        exact ⟨answer, _, rfl, (ih answer).mpr ⟨rest, hrest, rfl⟩⟩

end Interpretation

section Effects

variable (effect : (question : Question) → Answer question → σ → σ)

/-- The world after some exchanges, each of which has its effect. -/
def after (exchanges : List (Exchange Answer)) (world : σ) : σ :=
  exchanges.foldl (fun world exchange => effect exchange.1 exchange.2 world) world

@[simp] theorem after_nil (world : σ) : after effect [] world = world := rfl

@[simp] theorem after_cons (exchange : Exchange Answer) (rest : List (Exchange Answer))
    (world : σ) :
    after effect (exchange :: rest) world =
      after effect rest (effect exchange.1 exchange.2 world) := rfl

@[simp] theorem after_append (first rest : List (Exchange Answer)) (world : σ) :
    after effect (first ++ rest) world = after effect rest (after effect first world) := by
  simp [after]

/-- Whatever a dialogue is answered, its result and the world that it leaves are as wanted. -/
def Ensures : Dialogue Question Answer α → (α → σ → Prop) → σ → Prop
  | .done result, wanted, world => wanted result world
  | .ask question next, wanted, world =>
      ∀ answer, (next answer).Ensures wanted (effect question answer world)

variable {effect}

theorem ensures_iff {dialogue : Dialogue Question Answer α} {wanted : α → σ → Prop} {world : σ} :
    dialogue.Ensures effect wanted world ↔
      ∀ exchanges outcome, dialogue.Held exchanges outcome →
        wanted outcome (after effect exchanges world) := by
  induction dialogue generalizing world with
  | done result =>
      constructor
      · rintro hwanted exchanges outcome ⟨rfl, rfl⟩
        exact hwanted
      · intro hall
        exact hall [] result ⟨rfl, rfl⟩
  | ask question next ih =>
      constructor
      · rintro hensures exchanges outcome ⟨answer, rest, rfl, hheld⟩
        exact (ih answer).mp (hensures answer) rest outcome hheld
      · intro hall answer
        refine (ih answer).mpr fun rest outcome hheld => ?_
        exact hall _ outcome ⟨answer, rest, rfl, hheld⟩

/-- What the second dialogue needs is what the first one has to ensure. -/
theorem ensures_bind {dialogue : Dialogue Question Answer α}
    {f : α → Dialogue Question Answer β} {wanted : β → σ → Prop} {world : σ} :
    (dialogue >>= f).Ensures effect wanted world ↔
      dialogue.Ensures effect (fun middle => (f middle).Ensures effect wanted) world := by
  induction dialogue generalizing world with
  | done result => exact Iff.rfl
  | ask question next ih => exact forall_congr' fun answer => ih answer

theorem Ensures.mono {dialogue : Dialogue Question Answer α} {wanted weaker : α → σ → Prop}
    {world : σ} (hensures : dialogue.Ensures effect wanted world)
    (himp : ∀ outcome world, wanted outcome world → weaker outcome world) :
    dialogue.Ensures effect weaker world := by
  rw [ensures_iff] at hensures ⊢
  intro exchanges outcome hheld
  exact himp _ _ (hensures exchanges outcome hheld)

end Effects

section Questions

variable (allowed : Question → Prop)

/-- Whatever a dialogue is answered, it asks allowed questions only. -/
def Asks : Dialogue Question Answer α → Prop
  | .done _ => True
  | .ask question next => allowed question ∧ ∀ answer, (next answer).Asks

variable {allowed}

theorem Asks.bind {dialogue : Dialogue Question Answer α} {f : α → Dialogue Question Answer β}
    (hfirst : dialogue.Asks allowed) (hrest : ∀ middle, (f middle).Asks allowed) :
    (dialogue >>= f).Asks allowed := by
  induction dialogue with
  | done result => exact hrest result
  | ask question next ih => exact ⟨hfirst.1, fun answer => ih answer (hfirst.2 answer)⟩

theorem Asks.of_forall (hallowed : ∀ question, allowed question)
    (dialogue : Dialogue Question Answer α) : dialogue.Asks allowed := by
  induction dialogue with
  | done result => trivial
  | ask question next ih => exact ⟨hallowed question, ih⟩

theorem Asks.mono {dialogue : Dialogue Question Answer α} {wider : Question → Prop}
    (hasks : dialogue.Asks allowed) (himp : ∀ question, allowed question → wider question) :
    dialogue.Asks wider := by
  induction dialogue with
  | done result => trivial
  | ask question next ih => exact ⟨himp question hasks.1, fun answer => ih answer (hasks.2 answer)⟩

/-- What is asked to find the answers to allowed questions is what an interpreted dialogue asks. -/
theorem Asks.interpret {Question' : Type} {Answer' : Question' → Type}
    {find : (question : Question) → Dialogue Question' Answer' (Answer question)}
    {allowed' : Question' → Prop} {dialogue : Dialogue Question Answer α}
    (hasks : dialogue.Asks allowed)
    (hfind : ∀ question, allowed question → (find question).Asks allowed') :
    (dialogue.interpret find).Asks allowed' := by
  induction dialogue with
  | done result => trivial
  | ask question next ih =>
      exact Asks.bind (hfind question hasks.1) fun answer => ih answer (hasks.2 answer)

theorem Asks.of_held {dialogue : Dialogue Question Answer α} {exchanges : List (Exchange Answer)}
    {outcome : α} (hasks : dialogue.Asks allowed) (hheld : dialogue.Held exchanges outcome) :
    ∀ exchange ∈ exchanges, allowed exchange.1 := by
  induction dialogue generalizing exchanges with
  | done result =>
      obtain ⟨rfl, -⟩ := hheld
      simp
  | ask question next ih =>
      obtain ⟨answer, rest, rfl, hrest⟩ := hheld
      intro exchange hmem
      rcases List.mem_cons.mp hmem with rfl | hmem
      · exact hasks.1
      · exact ih answer (hasks.2 answer) hrest exchange hmem

end Questions

end Dialogue

end LogForwarding
