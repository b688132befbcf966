import LogForwarding.Reconcile.ApiCalls

/-!
What is asked while a record is looked after: the calls of its transition, however they are made,
and questions to the API server about the record itself.
-/

namespace LogForwarding

/-- What is asked while a record is looked after. -/
inductive Inquiry where
  /-- A call of the transition. -/
  | call (call : Call)
  /-- A question about the record itself. -/
  | api (question : ApiQuestion)

def Inquiry.Answer : Inquiry → Type
  | .call made => made.Answer
  | .api asked => asked.Answer

/-- A dialogue in which a record is looked after. -/
abbrev Care := Dialogue Inquiry Inquiry.Answer

namespace Care

variable {α : Type}

def ofCalls (calls : Dialogue Call Call.Answer α) : Care α :=
  calls.interpret fun c => Dialogue.query (Inquiry.call c)

def ofSession (session : Session α) : Care α :=
  session.interpret fun q => Dialogue.query (Inquiry.api q)

/-- How each answer is found with requests to an API server. -/
def find (interval : Nat) : (inquiry : Inquiry) → Session inquiry.Answer
  | .call c => ApiCalls.perform interval c
  | .api q => Dialogue.query q

/-- The same with requests to an API server only. -/
def toSession (interval : Nat) (care : Care α) : Session α :=
  care.interpret (find interval)

end Care

end LogForwarding
