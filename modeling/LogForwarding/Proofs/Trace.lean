import LogForwarding.Proofs.Course

/-!
Which calls a transition has made when it stops.  None follows the first that fails, so the calls
that were done and the one that has failed tell all of them.
-/

namespace LogForwarding

def Reply.isOk {ε α : Type} : Reply ε α → Bool
  | .ok _ => true
  | _ => false

/-- The calls on bundles and on monitoring among some exchanges.  One that was cancelled may never
have been made. -/
def callsMade (calls : List (Exchange Call.Answer)) : List Call :=
  (calls.map (·.1)).filter Call.isEffect

/-- Those of them that have succeeded. -/
def callsDone (calls : List (Exchange Call.Answer)) : List Call :=
  callsMade (calls.filter fun exchange => exchange.2.isOk)

namespace Move

variable {ns : String} {move : Move} {before after : RecordStatus}

/-- The call that a move makes in view of a status. -/
def asked? (ns : String) (status : RecordStatus) : Move → Option Call
  | .channel needed bundle action =>
      if needed status then some (.channel ns bundle action) else none
  | .monitoring action => some (.monitoring ns action)
  | .note _ => none

/-- A move that fails is a call that fails; one that does not makes the calls of a success. -/
theorem held_act {made : List (Exchange Call.Answer)} {outcome : Except ReconcileError Unit}
    (hheld : Act.Held (move.act ns) before made outcome after) :
    (outcome = .ok () ∧ made = move.calls ns before ∧ after = move.noted before) ∨
      ∃ call ∈ move.asked? ns before, ∃ reply error, made = [⟨call, reply⟩] ∧
        call.outcome reply = .error error ∧ outcome = .error error ∧ after = before := by
  cases outcome with
  | ok done => exact Or.inl ⟨rfl, held_act_ok hheld⟩
  | error error =>
      refine Or.inr ?_
      cases move with
      | note change => exact absurd (Act.held_modify.mp hheld).2.1 (by simp)
      | monitoring action =>
          obtain ⟨reply, rfl, houtcome, rfl⟩ := Act.held_call.mp hheld
          exact ⟨_, rfl, reply, error, rfl, houtcome.symm, rfl, rfl⟩
      | channel needed bundle action =>
          rw [Act.Held] at hheld
          by_cases hneeded : needed before
          · rw [act_channel_of_needed hneeded] at hheld
            obtain ⟨reply, rfl, houtcome, rfl⟩ := Act.held_call.mp hheld
            exact ⟨_, if_pos hneeded, reply, error, rfl, houtcome.symm, rfl, rfl⟩
          · rw [act_channel_of_not_needed hneeded] at hheld
            exact absurd (Act.held_pure.mp hheld).2.1 (by simp)

theorem calls_map (ns : String) (move : Move) (status : RecordStatus) :
    (move.calls ns status).map (·.1) = (move.asked? ns status).toList := by
  cases move with
  | note change => rfl
  | monitoring action => rfl
  | channel needed bundle action =>
      rw [calls, asked?]
      split
      · rfl
      · rfl

theorem isOk_of_mem_calls (ns : String) (move : Move) (status : RecordStatus) :
    ∀ exchange ∈ move.calls ns status, exchange.2.isOk := by
  cases move with
  | note change => simp [calls]
  | monitoring action => simp [calls, Reply.isOk]
  | channel needed bundle action =>
      rw [calls]
      split <;> simp [Reply.isOk]

end Move

/-- Calls were made one after the other, and the last of them may have failed. -/
def Tried (done : List Call) : Option Call → List (Exchange Call.Answer) →
    Except ReconcileError Unit → Prop
  | none, calls, outcome =>
      outcome = .ok () ∧ calls.map (·.1) = done ∧ ∀ exchange ∈ calls, exchange.2.isOk
  | some call, calls, outcome => ∃ earlier reply error, calls = earlier ++ [⟨call, reply⟩] ∧
      earlier.map (·.1) = done ∧ (∀ exchange ∈ earlier, exchange.2.isOk) ∧
        call.outcome reply = .error error ∧ outcome = .error error

namespace Tried

variable {done : List Call} {failed : Option Call} {calls : List (Exchange Call.Answer)}
  {outcome : Except ReconcileError Unit}

theorem append (htried : Tried done failed calls outcome) {first : List (Exchange Call.Answer)}
    (hfirst : ∀ exchange ∈ first, exchange.2.isOk) :
    Tried (first.map (·.1) ++ done) failed (first ++ calls) outcome := by
  cases failed with
  | none =>
      obtain ⟨rfl, rfl, hall⟩ := htried
      exact ⟨rfl, List.map_append, fun exchange hmem =>
        (List.mem_append.mp hmem).elim (hfirst exchange) (hall exchange)⟩
  | some call =>
      obtain ⟨earlier, reply, error, rfl, rfl, hall, hreply, rfl⟩ := htried
      refine ⟨first ++ earlier, reply, error, by simp, List.map_append, ?_, hreply, rfl⟩
      exact fun exchange hmem => (List.mem_append.mp hmem).elim (hfirst exchange) (hall exchange)

theorem isOk_of_outcome {call : Call} {reply : call.Answer} {error : ReconcileError}
    (hreply : call.outcome reply = .error error) : reply.isOk = false := by
  cases reply with
  | ok result => cases hreply
  | failed error => rfl
  | cancelled => rfl

theorem callsDone_eq (htried : Tried done failed calls outcome) :
    callsDone calls = done.filter Call.isEffect := by
  have hkept {some : List (Exchange Call.Answer)} (hall : ∀ exchange ∈ some, exchange.2.isOk) :
      some.filter (fun exchange => exchange.2.isOk) = some :=
    List.filter_eq_self.mpr hall
  cases failed with
  | none =>
      obtain ⟨-, rfl, hall⟩ := htried
      rw [callsDone, callsMade, hkept hall]
  | some call =>
      obtain ⟨earlier, reply, error, rfl, rfl, hall, hreply, -⟩ := htried
      rw [callsDone, callsMade, List.filter_append, hkept hall]
      simp [isOk_of_outcome hreply]

theorem callsMade_eq (htried : Tried done failed calls outcome) :
    callsMade calls = (done ++ failed.toList).filter Call.isEffect := by
  rw [callsMade]
  cases failed with
  | none =>
      obtain ⟨-, rfl, -⟩ := htried
      rw [Option.toList_none, List.append_nil]
  | some call =>
      obtain ⟨earlier, reply, error, rfl, rfl, -⟩ := htried
      rw [List.map_append]
      rfl

/-- Behind some reads all calls are those that were done and the one that has failed. -/
theorem callsMade_and_callsDone {reads : List Call}
    (htried : Tried (reads ++ done) failed calls outcome)
    (hreads : ∀ call ∈ reads, call.isEffect = false)
    (heffects : ∀ call ∈ done ++ failed.toList, call.isEffect) :
    callsMade calls = done ++ failed.toList ∧ callsDone calls = done := by
  have hnone : reads.filter Call.isEffect = [] :=
    List.filter_eq_nil_iff.mpr fun call hmem => by simp [hreads call hmem]
  constructor
  · rw [htried.callsMade_eq, List.append_assoc, List.filter_append, hnone,
      List.filter_eq_self.mpr heffects, List.nil_append]
  · rw [htried.callsDone_eq, List.filter_append, hnone, List.nil_append, List.filter_eq_self]
    exact fun call hmem => heffects call (List.mem_append_left _ hmem)

theorem outcome_ok_iff (htried : Tried done failed calls outcome) :
    outcome = .ok () ↔ failed = none := by
  cases failed with
  | none =>
      obtain ⟨rfl, -, -⟩ := htried
      simp
  | some call =>
      obtain ⟨-, -, error, -, -, -, -, rfl⟩ := htried
      simp

theorem all_isOk_iff (htried : Tried done failed calls outcome) :
    (∀ exchange ∈ calls, exchange.2.isOk) ↔ failed = none := by
  cases failed with
  | none =>
      obtain ⟨-, -, hall⟩ := htried
      exact iff_of_true hall rfl
  | some call =>
      obtain ⟨earlier, reply, error, rfl, -, -, hreply, -⟩ := htried
      refine iff_of_false (fun hall => ?_) (by simp)
      have hok := hall ⟨call, reply⟩ (by simp)
      rw [isOk_of_outcome hreply] at hok
      cases hok

/-- No call follows the first that has failed. -/
theorem nothing_after_failure (htried : Tried done failed calls outcome)
    {earlier later : List (Exchange Call.Answer)} {exchange : Exchange Call.Answer}
    (hcalls : calls = earlier ++ exchange :: later) (hfailed : ¬ exchange.2.isOk) : later = [] := by
  cases failed with
  | none =>
      obtain ⟨-, -, hall⟩ := htried
      exact absurd (hall exchange (by simp [hcalls])) hfailed
  | some call =>
      obtain ⟨first, reply, error, rfl, -, hall, -⟩ := htried
      rcases List.append_eq_append_iff.mp hcalls with ⟨more, -, hlast⟩ | ⟨more, rfl, hlast⟩
      · cases more with
        | nil => exact (List.cons.inj hlast).2.symm
        | cons other more => simp at hlast
      · cases more with
        | nil => exact (List.cons.inj hlast).2
        | cons other more =>
            obtain ⟨rfl, -⟩ := List.cons.inj hlast
            exact absurd (hall exchange (by simp)) hfailed

end Tried

namespace Course

variable {ns : String} {course : Course} {before after : RecordStatus}

/-- Wherever a course stops, the calls that were done before, the one that has failed and the status
are as wanted. -/
def Stops (ns : String) (wanted : List Call → Option Call → RecordStatus → Prop) :
    Course → List Call → RecordStatus → Prop
  | [], done, status => wanted done none status
  | move :: rest, done, status =>
      (∀ call ∈ move.asked? ns status, wanted done (some call) status) ∧
        Stops ns wanted rest (done ++ (move.asked? ns status).toList) (move.noted status)

/-- What a course wants wherever it stops holds however it was taken. -/
theorem Stops.of_held {wanted : List Call → Option Call → RecordStatus → Prop} {done : List Call}
    (hstops : Stops ns wanted course done before) {calls : List (Exchange Call.Answer)}
    {outcome : Except ReconcileError Unit}
    (hheld : Act.Held (course.act ns) before calls outcome after) :
    ∃ more failed, Tried more failed calls outcome ∧ wanted (done ++ more) failed after := by
  induction course generalizing before calls done with
  | nil =>
      obtain ⟨rfl, rfl, rfl⟩ := Act.held_pure.mp hheld
      refine ⟨[], none, ⟨rfl, rfl, List.forall_mem_nil _⟩, ?_⟩
      rw [List.append_nil]
      exact hstops
  | cons move rest ih =>
      obtain ⟨hfail, hrest⟩ := hstops
      rw [act, Act.held_bind] at hheld
      rcases hheld with ⟨first, others, done', middle, rfl, hfirst, hothers⟩ | ⟨error, hfirst, rfl⟩
      · rcases Move.held_act hfirst with ⟨-, rfl, rfl⟩ | ⟨_, _, _, _, _, _, habsurd, _⟩
        · obtain ⟨more, failed, htried, hwanted⟩ := ih hrest hothers
          have hmoved := htried.append (Move.isOk_of_mem_calls ns move before)
          rw [Move.calls_map] at hmoved
          exact ⟨_, failed, hmoved, by rwa [← List.append_assoc]⟩
        · cases habsurd
      · rcases Move.held_act hfirst with
          ⟨habsurd, -, -⟩ | ⟨call, hcall, reply, _, rfl, hreply, herror, rfl⟩
        · cases habsurd
        · refine ⟨[], some call, ⟨[], reply, error, rfl, rfl, List.forall_mem_nil _, ?_, rfl⟩, ?_⟩
          · cases herror
            exact hreply
          · rw [List.append_nil]
            exact hfail call hcall

end Course

end LogForwarding
