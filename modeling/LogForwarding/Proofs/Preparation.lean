import LogForwarding.Proofs.Act
import LogForwarding.Proofs.Deployment
import Mathlib.Tactic.Choose

/-!
What comes before a transition changes anything: calls that only read.  They leave the status alone
and do not depend on it, and the first that fails is the last.
-/

namespace LogForwarding

open Actuator

variable {α β : Type}

/-- Whether a call changes the world. -/
def Call.isEffect : Call → Bool
  | .channel _ _ _ | .monitoring _ _ => true
  | _ => false

theorem Call.effect_of_read {call : Call} (hread : call.isEffect = false) (answer : call.Answer)
    (deployment : Deployment) : call.effect answer deployment = deployment := by
  cases call with
  | channel ns bundle action => cases hread
  | monitoring ns action => cases hread
  | cluster ns => cases answer <;> rfl
  | secret ns name => cases answer <;> rfl
  | configMap ns name => cases answer <;> rfl

/-- Calls that only read have no effect together. -/
theorem after_of_reads {calls : List (Exchange Call.Answer)}
    (hreads : ∀ exchange ∈ calls, exchange.1.isEffect = false) (deployment : Deployment) :
    Dialogue.after Call.effect calls deployment = deployment := by
  induction calls with
  | nil => rfl
  | cons exchange rest ih =>
      obtain ⟨hread, hothers⟩ := List.forall_mem_cons.mp hreads
      rw [Dialogue.after_cons, Call.effect_of_read hread, ih hothers]

/-- Goes on with a result; an error is the end. -/
def Dialogue.ifOk {Question : Type} {Answer : Question → Type} {ε : Type}
    (next : α → Dialogue Question Answer (Except ε β)) :
    Except ε α → Dialogue Question Answer (Except ε β)
  | .ok result => next result
  | .error error => .done (.error error)

/-- A computation that only reads: it does not look at the status, changes nothing and ends with the
error of a call that fails. -/
def Reading (act : Act α) : Prop :=
  ∃ dialogue : Dialogue Call Call.Answer (Except ReconcileError α),
    (∀ status, act status = dialogue >>= fun outcome => pure (outcome, status)) ∧
      ∀ calls outcome, dialogue.Held calls outcome → ∀ exchange ∈ calls,
        exchange.1.isEffect = false ∧
          ∀ error, exchange.1.outcome exchange.2 = .error error → outcome = .error error

namespace Reading

theorem pure (result : α) : Reading (pure result : Act α) := by
  refine ⟨.done (.ok result), fun _ => rfl, ?_⟩
  rintro _ _ ⟨rfl, -⟩
  exact List.forall_mem_nil _

theorem liftExcept (result : Except ReconcileError α) : Reading (prepare.liftExcept result) := by
  refine ⟨.done result, fun _ => rfl, ?_⟩
  rintro _ _ ⟨rfl, -⟩
  exact List.forall_mem_nil _

theorem throw (error : ReconcileError) : Reading (throw error : Act α) :=
  liftExcept (.error error)

theorem call {made : Call} (hread : made.isEffect = false) : Reading (call made) := by
  refine ⟨.ask made fun reply => .done (made.outcome reply), fun _ => rfl, ?_⟩
  rintro _ _ ⟨reply, _, rfl, rfl, rfl⟩
  refine List.forall_mem_singleton.mpr ⟨hread, fun error herror => herror⟩

theorem bind {act : Act α} {f : α → Act β} (hact : Reading act)
    (hrest : ∀ result, Reading (f result)) : Reading (act >>= f) := by
  obtain ⟨dialogue, hdialogue, hreads⟩ := hact
  choose next hnext hothers using hrest
  refine ⟨dialogue >>= Dialogue.ifOk next, ?_, ?_⟩
  · intro status
    rw [Act.run_bind, hdialogue]
    simp only [bind_assoc, pure_bind]
    refine congrArg _ (funext fun outcome => ?_)
    cases outcome with
    | ok result => exact hnext result status
    | error error => rfl
  · intro calls outcome hheld
    obtain ⟨first, rest, middle, rfl, hfirst, hheld⟩ := Dialogue.held_bind.mp hheld
    cases middle with
    | ok result =>
        intro exchange hmem
        rcases List.mem_append.mp hmem with hmem | hmem
        · obtain ⟨hread, hfails⟩ := hreads _ _ hfirst exchange hmem
          refine ⟨hread, fun error herror => ?_⟩
          cases hfails error herror
        · exact hothers result _ _ hheld exchange hmem
    | error error =>
        obtain ⟨rfl, rfl⟩ := hheld
        rw [List.append_nil]
        intro exchange hmem
        obtain ⟨hread, hfails⟩ := hreads _ _ hfirst exchange hmem
        refine ⟨hread, fun found hfound => ?_⟩
        cases hfails found hfound
        rfl

section Held

variable {act : Act α} (hact : Reading act) {before after : RecordStatus}
  {calls : List (Exchange Call.Answer)} {outcome : Except ReconcileError α}

include hact

theorem of_held (hheld : Act.Held act before calls outcome after) :
    after = before ∧ (∀ status, Act.Held act status calls outcome status) ∧
      ∀ exchange ∈ calls, exchange.1.isEffect = false ∧
        ∀ error, exchange.1.outcome exchange.2 = .error error → outcome = .error error := by
  obtain ⟨dialogue, hdialogue, hreads⟩ := hact
  rw [Act.Held, hdialogue, Dialogue.held_bind] at hheld
  obtain ⟨first, rest, found, rfl, hfirst, rfl, heq⟩ := hheld
  cases heq
  rw [List.append_nil]
  refine ⟨rfl, fun status => ?_, hreads _ _ hfirst⟩
  rw [Act.Held, hdialogue, Dialogue.held_bind]
  exact ⟨first, [], _, (List.append_nil first).symm, hfirst, rfl, rfl⟩

theorem after_eq (hheld : Act.Held act before calls outcome after) :
    after = before ∧ ∀ deployment, Dialogue.after Call.effect calls deployment = deployment := by
  obtain ⟨hsame, -, hreads⟩ := hact.of_held hheld
  exact ⟨hsame, after_of_reads fun exchange hmem => (hreads exchange hmem).1⟩

/-- Which calls belong to the reading is known from where they begin. -/
theorem unique (hheld : Act.Held act before calls outcome after) {status later : RecordStatus}
    {others : List (Exchange Call.Answer)} {result : Except ReconcileError α}
    (hother : Act.Held act status others result later) {rest more : List (Exchange Call.Answer)}
    (heq : calls ++ rest = others ++ more) : calls = others ∧ outcome = result := by
  have hheld := (hact.of_held hheld).2.1 .initial
  have hother := (hact.of_held hother).2.1 .initial
  obtain ⟨hcalls, hresult⟩ := Dialogue.Held.unique hheld hother heq
  exact ⟨hcalls, (Prod.mk.inj hresult).1⟩

end Held

theorem cluster (ns : String) : Reading (Actuator.call (.cluster ns)) :=
  .call rfl

theorem resolveSecret (ns : String) (config : TenantConfig) (ctx : ClusterContext) :
    Reading (resolveSecret ns config ctx) := by
  rw [Actuator.resolveSecret]
  split
  · exact .pure ctx
  · split
    · exact .pure ctx
    · exact .bind (.call rfl) fun found => .pure _

theorem resolveConfigMap (ns : String) (config : TenantConfig) (ctx : ClusterContext) :
    Reading (resolveConfigMap ns config ctx) := by
  rw [Actuator.resolveConfigMap]
  split
  · exact .pure ctx
  · split
    · exact .pure ctx
    · exact .bind (.call rfl) fun found => .pure _

theorem resolveContext (ns : String) (config : TenantConfig) :
    Reading (resolveContext ns config) := by
  refine .bind (.call rfl) fun found => ?_
  cases found with
  | none => exact .throw _
  | some cluster => exact .bind (.resolveSecret ns _ _) fun ctx => .resolveConfigMap ns _ ctx

theorem prepare (record : TenantRecord) (ns : String) : Reading (prepare record ns) :=
  .bind (.liftExcept _) fun _ => .bind (.resolveContext ns _) fun _ =>
    .bind (.liftExcept _) fun _ => .pure _

end Reading

end LogForwarding
