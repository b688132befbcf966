import LogForwarding.Proofs.Exchanges
import LogForwarding.Reconcile.Actuator

/-!
How computations of the actuator run: the exchanges of which they can consist, and what they ensure
in a world that the answers of their calls change.
-/

namespace LogForwarding

variable {α β σ : Type}

namespace Act

/-- A computation can consist of these calls, and takes one status to another. -/
def Held (act : Act α) (before : RecordStatus) (calls : List (Exchange Call.Answer))
    (outcome : Except ReconcileError α) (after : RecordStatus) : Prop :=
  Dialogue.Held (act before) calls (outcome, after)

/-- Whatever its calls are answered, the outcome of a computation, the status and the world that it
leaves are as wanted. -/
def Ensures (effect : (call : Call) → call.Answer → σ → σ) (act : Act α)
    (wanted : Except ReconcileError α → RecordStatus → σ → Prop) (status : RecordStatus)
    (world : σ) : Prop :=
  Dialogue.Ensures effect (act status) (fun result => wanted result.1 result.2) world

theorem run_bind (act : Act α) (f : α → Act β) (status : RecordStatus) :
    (act >>= f) status = (act status >>= fun result =>
      match result with
      | (.ok middle, status) => f middle status
      | (.error error, status) => pure (.error error, status)) := by
  show (act status >>= _) = (act status >>= _)
  congr 1
  funext result
  obtain ⟨outcome, status⟩ := result
  cases outcome <;> rfl

/-- A computation in two parts succeeds when both of them do. -/
theorem held_bind_ok {act : Act α} {f : α → Act β} {before after : RecordStatus}
    {calls : List (Exchange Call.Answer)} {result : β} :
    Held (act >>= f) before calls (.ok result) after ↔
      ∃ first rest middle status, calls = first ++ rest ∧
        Held act before first (.ok middle) status ∧ Held (f middle) status rest (.ok result) after := by
  rw [Held, run_bind, Dialogue.held_bind]
  constructor
  · rintro ⟨first, rest, ⟨outcome, status⟩, rfl, hfirst, hrest⟩
    cases outcome with
    | ok middle => exact ⟨first, rest, middle, status, rfl, hfirst, hrest⟩
    | error error => exact absurd hrest.2 (by simp)
  · rintro ⟨first, rest, middle, status, rfl, hfirst, hrest⟩
    exact ⟨first, rest, (.ok middle, status), rfl, hfirst, hrest⟩

/-- A computation in two parts comes to its outcome in the second part, or fails in the first. -/
theorem held_bind {act : Act α} {f : α → Act β} {before after : RecordStatus}
    {calls : List (Exchange Call.Answer)} {outcome : Except ReconcileError β} :
    Held (act >>= f) before calls outcome after ↔
      (∃ first rest middle status, calls = first ++ rest ∧
        Held act before first (.ok middle) status ∧ Held (f middle) status rest outcome after) ∨
      ∃ error, Held act before calls (.error error) after ∧ outcome = .error error := by
  rw [Held, run_bind, Dialogue.held_bind]
  constructor
  · rintro ⟨first, rest, ⟨found, status⟩, rfl, hfirst, hrest⟩
    cases found with
    | ok middle => exact Or.inl ⟨first, rest, middle, status, rfl, hfirst, hrest⟩
    | error error =>
        obtain ⟨rfl, heq⟩ := hrest
        cases heq
        rw [List.append_nil]
        exact Or.inr ⟨error, hfirst, rfl⟩
  · rintro (⟨first, rest, middle, status, rfl, hfirst, hrest⟩ | ⟨error, hfirst, rfl⟩)
    · exact ⟨first, rest, (.ok middle, status), rfl, hfirst, hrest⟩
    · exact ⟨calls, [], (.error error, after), by simp, hfirst, rfl, rfl⟩

theorem held_pure {result : α} {before after : RecordStatus} {calls : List (Exchange Call.Answer)}
    {outcome : Except ReconcileError α} :
    Held (pure result) before calls outcome after ↔
      calls = [] ∧ outcome = .ok result ∧ after = before := by
  show calls = [] ∧ (outcome, after) = (.ok result, before) ↔ _
  rw [Prod.mk.injEq]

theorem held_throw {error : ReconcileError} {before after : RecordStatus}
    {calls : List (Exchange Call.Answer)} {outcome : Except ReconcileError α} :
    Held (throw error) before calls outcome after ↔
      calls = [] ∧ outcome = .error error ∧ after = before := by
  show calls = [] ∧ (outcome, after) = (.error error, before) ↔ _
  rw [Prod.mk.injEq]

theorem held_modify {change : RecordStatus → RecordStatus} {before after : RecordStatus}
    {calls : List (Exchange Call.Answer)} {outcome : Except ReconcileError PUnit} :
    Held (modify change) before calls outcome after ↔
      calls = [] ∧ outcome = .ok ⟨⟩ ∧ after = change before := by
  show calls = [] ∧ (outcome, after) = (.ok ⟨⟩, change before) ↔ _
  rw [Prod.mk.injEq]

/-- A call is one exchange and leaves the status alone. -/
theorem held_call {call : Call} {before after : RecordStatus}
    {calls : List (Exchange Call.Answer)} {outcome : Except ReconcileError call.Result} :
    Held (Actuator.call call) before calls outcome after ↔
      ∃ reply, calls = [⟨call, reply⟩] ∧ outcome = call.outcome reply ∧ after = before := by
  constructor
  · rintro ⟨reply, rest, rfl, rfl, heq⟩
    cases heq
    exact ⟨reply, rfl, rfl, rfl⟩
  · rintro ⟨reply, rfl, rfl, rfl⟩
    exact ⟨reply, [], rfl, rfl, rfl⟩

/-- A call that succeeds was answered with its result. -/
theorem held_call_ok {call : Call} {before after : RecordStatus}
    {calls : List (Exchange Call.Answer)} {result : call.Result} :
    Held (Actuator.call call) before calls (.ok result) after ↔
      calls = [⟨call, .ok result⟩] ∧ after = before := by
  rw [held_call]
  constructor
  · rintro ⟨reply, rfl, houtcome, rfl⟩
    cases reply with
    | ok found =>
        cases houtcome
        exact ⟨rfl, rfl⟩
    | failed error => exact absurd houtcome (by simp [Call.outcome])
    | cancelled => exact absurd houtcome (by simp [Call.outcome])
  · rintro ⟨rfl, rfl⟩
    exact ⟨.ok result, rfl, rfl, rfl⟩

/-- Whatever the status is and whatever its calls are answered, a computation makes allowed calls
only. -/
def Asks (allowed : Call → Prop) (act : Act α) : Prop :=
  ∀ status, Dialogue.Asks allowed (act status)

theorem Asks.bind {allowed : Call → Prop} {act : Act α} {f : α → Act β}
    (hact : Asks allowed act) (hrest : ∀ result, Asks allowed (f result)) :
    Asks allowed (act >>= f) := by
  intro status
  rw [run_bind]
  refine Dialogue.Asks.bind (hact status) ?_
  rintro ⟨outcome, status⟩
  cases outcome with
  | ok middle => exact hrest middle status
  | error error => trivial

theorem asks_call {allowed : Call → Prop} {call : Call} (hallowed : allowed call) :
    Asks allowed (Actuator.call call) :=
  fun _ => ⟨hallowed, fun _ => trivial⟩

theorem Asks.of_held {allowed : Call → Prop} {act : Act α} (hasks : Asks allowed act)
    {before after : RecordStatus} {calls : List (Exchange Call.Answer)}
    {outcome : Except ReconcileError α} (hheld : Held act before calls outcome after) :
    ∀ exchange ∈ calls, allowed exchange.1 :=
  Dialogue.Asks.of_held (hasks before) hheld

section Ensures

variable {effect : (call : Call) → call.Answer → σ → σ}

theorem ensures_iff {act : Act α} {wanted : Except ReconcileError α → RecordStatus → σ → Prop}
    {status : RecordStatus} {world : σ} :
    Ensures effect act wanted status world ↔
      ∀ calls outcome after, Held act status calls outcome after →
        wanted outcome after (Dialogue.after effect calls world) := by
  rw [Ensures, Dialogue.ensures_iff]
  constructor
  · intro hall calls outcome after hheld
    exact hall calls (outcome, after) hheld
  · rintro hall calls ⟨outcome, after⟩ hheld
    exact hall calls outcome after hheld

/-- What the second part needs is what the first part has to ensure when it succeeds. -/
theorem ensures_bind {act : Act α} {f : α → Act β}
    {wanted : Except ReconcileError β → RecordStatus → σ → Prop} {status : RecordStatus}
    {world : σ} :
    Ensures effect (act >>= f) wanted status world ↔
      Ensures effect act (fun outcome status world =>
        match outcome with
        | .ok middle => Ensures effect (f middle) wanted status world
        | .error error => wanted (.error error) status world) status world := by
  rw [Ensures, run_bind, Dialogue.ensures_bind, Ensures]
  constructor
  all_goals
    refine fun hensures => hensures.mono ?_
    rintro ⟨outcome, status⟩ world hwanted
    cases outcome <;> exact hwanted

theorem Ensures.mono {act : Act α}
    {wanted weaker : Except ReconcileError α → RecordStatus → σ → Prop} {status : RecordStatus}
    {world : σ} (hensures : Ensures effect act wanted status world)
    (himp : ∀ outcome status world, wanted outcome status world → weaker outcome status world) :
    Ensures effect act weaker status world :=
  Dialogue.Ensures.mono hensures fun result world hwanted => himp result.1 result.2 world hwanted

theorem ensures_get {wanted : Except ReconcileError RecordStatus → RecordStatus → σ → Prop}
    {status : RecordStatus} {world : σ} :
    Ensures effect get wanted status world ↔ wanted (.ok status) status world :=
  Iff.rfl

theorem ensures_call {call : Call}
    {wanted : Except ReconcileError call.Result → RecordStatus → σ → Prop}
    {status : RecordStatus} {world : σ} :
    Ensures effect (Actuator.call call) wanted status world ↔
      ∀ reply, wanted (call.outcome reply) status (effect call reply world) :=
  Iff.rfl

end Ensures

end Act

end LogForwarding
