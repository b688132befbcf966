import LogForwarding.Proofs.Exchanges

/-!
One dialogue, held with two worlds side by side.  As long as it cannot tell the answers of the two
apart, it asks both the same questions and comes to the same result.
-/

namespace LogForwarding

namespace Dialogue

variable {Question : Type} {Answer : Question → Type} {α β σ τ : Type}

/-- The questions of a dialogue that is held with a world. -/
def questionsWith (answer : (question : Question) → σ → Answer question × σ)
    (dialogue : Dialogue Question Answer α) (world : σ) : List Question :=
  (dialogue.exchangesWith answer world).map (·.1)

/-- A dialogue goes on in one and the same way after two answers that are alike. -/
def Blind (alike : (question : Question) → Answer question → Answer question → Prop) :
    Dialogue Question Answer α → Prop
  | .done _ => True
  | .ask question next =>
      (∀ answer other, alike question answer other → next answer = next other) ∧
        ∀ answer, (next answer).Blind alike

section Blind

variable {alike : (question : Question) → Answer question → Answer question → Prop}

theorem Blind.bind {dialogue : Dialogue Question Answer α} {f : α → Dialogue Question Answer β}
    (hfirst : dialogue.Blind alike) (hrest : ∀ middle, (f middle).Blind alike) :
    (dialogue >>= f).Blind alike := by
  induction dialogue with
  | done result => exact hrest result
  | ask question next ih =>
      obtain ⟨hsame, hnext⟩ := hfirst
      refine ⟨fun answer other halike => ?_, fun answer => ih answer (hnext answer)⟩
      exact congrArg (· >>= f) (hsame answer other halike)

/-- A dialogue that asks only what is answered in one way cannot but be blind. -/
theorem Asks.blind {dialogue : Dialogue Question Answer α}
    (hasks : dialogue.Asks fun question =>
      ∀ answer other, alike question answer other → answer = other) :
    dialogue.Blind alike := by
  induction dialogue with
  | done result => trivial
  | ask question next ih =>
      refine ⟨fun answer other halike => ?_, fun answer => ih answer (hasks.2 answer)⟩
      rw [hasks.1 answer other halike]

theorem Asks.interpret_blind {Inner : Type} {Reply : Inner → Type}
    {alike : (question : Inner) → Reply question → Reply question → Prop}
    {find : (question : Question) → Dialogue Inner Reply (Answer question)}
    {allowed : Question → Prop} {dialogue : Dialogue Question Answer α}
    (hasks : dialogue.Asks allowed)
    (hfind : ∀ question, allowed question → (find question).Blind alike) :
    (dialogue.interpret find).Blind alike := by
  induction dialogue with
  | done result => trivial
  | ask question next ih =>
      exact Blind.bind (hfind question hasks.1) fun answer => ih answer (hasks.2 answer)

/-- Two worlds that agree, and still do after every question, answer alike: a dialogue that is blind
to the difference goes the same way in both of them. -/
theorem Blind.run_eq {answer : (question : Question) → σ → Answer question × σ}
    {answer' : (question : Question) → τ → Answer question × τ} {agree : σ → τ → Prop}
    {allowed : Question → Prop} {dialogue : Dialogue Question Answer α}
    (hblind : dialogue.Blind alike) (hasks : dialogue.Asks allowed)
    (hstep : ∀ question, allowed question → ∀ world world', agree world world' →
      alike question (answer question world).1 (answer' question world').1 ∧
        agree (answer question world).2 (answer' question world').2)
    {world : σ} {world' : τ} (hagree : agree world world') :
    (dialogue.run answer world).1 = (dialogue.run answer' world').1 ∧
      dialogue.questionsWith answer world = dialogue.questionsWith answer' world' ∧
        agree (dialogue.run answer world).2 (dialogue.run answer' world').2 := by
  induction dialogue generalizing world world' with
  | done result => exact ⟨rfl, rfl, hagree⟩
  | ask question next ih =>
      obtain ⟨halike, hagree⟩ := hstep question hasks.1 world world' hagree
      have hnext := hblind.1 _ _ halike
      obtain ⟨hresult, hquestions, hleft⟩ := ih _ (hblind.2 _) (hasks.2 _) hagree
      rw [run_ask, run_ask, ← hnext]
      refine ⟨hresult, ?_, hleft⟩
      rw [questionsWith, questionsWith, exchangesWith, exchangesWith, ← hnext]
      exact congrArg (question :: ·) hquestions

end Blind

end Dialogue

end LogForwarding
