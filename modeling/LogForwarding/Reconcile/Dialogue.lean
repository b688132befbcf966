/-!
Dialogues: computations that ask the world questions and go on with its answers.  What a dialogue
does is told by its questions alone, so it can be held with any world, stopped anywhere, and mixed
with other dialogues.
-/

namespace LogForwarding

/-- A computation that asks questions and ends with a result. -/
inductive Dialogue (Question : Type) (Answer : Question → Type) (α : Type) where
  | done (result : α)
  | ask (question : Question) (next : Answer question → Dialogue Question Answer α)

namespace Dialogue

variable {Question : Type} {Answer : Question → Type} {α β γ σ : Type}

protected def bind : Dialogue Question Answer α → (α → Dialogue Question Answer β) →
    Dialogue Question Answer β
  | .done result, f => f result
  | .ask question next, f => .ask question fun answer => (next answer).bind f

instance : Monad (Dialogue Question Answer) where
  pure := .done
  bind := Dialogue.bind

def query (question : Question) : Dialogue Question Answer (Answer question) :=
  .ask question .done

def run (answer : (question : Question) → σ → Answer question × σ) :
    Dialogue Question Answer α → σ → α × σ
  | .done result, world => (result, world)
  | .ask question next, world =>
      let reply := answer question world
      (next reply.1).run answer reply.2

/-- Lets a dialogue of another kind find each answer. -/
def interpret {Question' : Type} {Answer' : Question' → Type}
    (find : (question : Question) → Dialogue Question' Answer' (Answer question)) :
    Dialogue Question Answer α → Dialogue Question' Answer' α
  | .done result => .done result
  | .ask question next => (find question).bind fun answer => (next answer).interpret find

@[simp] theorem pure_eq (result : α) :
    (pure result : Dialogue Question Answer α) = .done result := rfl

@[simp] theorem bind_done (result : α) (f : α → Dialogue Question Answer β) :
    (Dialogue.done result >>= f) = f result := rfl

@[simp] theorem bind_ask (question : Question)
    (next : Answer question → Dialogue Question Answer α) (f : α → Dialogue Question Answer β) :
    (Dialogue.ask question next >>= f) = .ask question fun answer => next answer >>= f := rfl

theorem bind_pure (dialogue : Dialogue Question Answer α) : dialogue >>= pure = dialogue := by
  induction dialogue with
  | done result => rfl
  | ask question next ih => simp only [bind_ask, ih]

theorem bind_assoc (dialogue : Dialogue Question Answer α) (f : α → Dialogue Question Answer β)
    (g : β → Dialogue Question Answer γ) :
    dialogue >>= f >>= g = dialogue >>= fun result => f result >>= g := by
  induction dialogue with
  | done result => rfl
  | ask question next ih => simp only [bind_ask, ih]

instance : LawfulMonad (Dialogue Question Answer) :=
  LawfulMonad.mk' _ bind_pure (fun _ _ => rfl) bind_assoc

@[simp] theorem run_done (answer : (question : Question) → σ → Answer question × σ) (result : α)
    (world : σ) : (Dialogue.done result).run answer world = (result, world) := rfl

@[simp] theorem run_ask (answer : (question : Question) → σ → Answer question × σ)
    (question : Question) (next : Answer question → Dialogue Question Answer α) (world : σ) :
    (Dialogue.ask question next).run answer world =
      (next (answer question world).1).run answer (answer question world).2 := rfl

/-- The world that one dialogue leaves is the world that the next one finds. -/
theorem run_bind (answer : (question : Question) → σ → Answer question × σ)
    (dialogue : Dialogue Question Answer α) (f : α → Dialogue Question Answer β) (world : σ) :
    (dialogue >>= f).run answer world =
      (f (dialogue.run answer world).1).run answer (dialogue.run answer world).2 := by
  induction dialogue generalizing world with
  | done result => rfl
  | ask question next ih => simp only [bind_ask, run_ask, ih]

/-- To interpret a dialogue and hold it is to hold it with interpreted answers. -/
theorem run_interpret {Question' : Type} {Answer' : Question' → Type}
    (find : (question : Question) → Dialogue Question' Answer' (Answer question))
    (answer : (question : Question') → σ → Answer' question × σ)
    (dialogue : Dialogue Question Answer α) (world : σ) :
    (dialogue.interpret find).run answer world =
      dialogue.run (fun question => (find question).run answer) world := by
  induction dialogue generalizing world with
  | done result => rfl
  | ask question next ih =>
      show ((find question) >>= fun a => (next a).interpret find).run answer world = _
      rw [run_bind, ih, run_ask]

end Dialogue

end LogForwarding
