import LogForwarding.Proofs.Course
import LogForwarding.Proofs.Requests

/-!
What a look at a record is concerned with: the objects of the namespace of the record, and the
description of the cluster that the namespace belongs to.  Only the record and the objects that are
made for its tenant are written.
-/

namespace LogForwarding

open Actuator

/-- A call that concerns the tenant of a namespace, and writes no objects but those that are made for
a tenant. -/
def Call.Concerns (ns : String) : Call → Prop
  | .channel other _ _ | .cluster other | .secret other _ | .configMap other _
  | .monitoring other .remove => other = ns
  | .monitoring other (.apply objects) =>
      other = ns ∧ ∀ object ∈ objects, (object.kind, object.name) ∈ Monitoring.objectNames

section Calls

variable {settings : Settings} {record : TenantRecord} {ns : String}

/-- The objects that a move writes are those by which a tenant is observed. -/
def Move.IsUsual : Move → Prop
  | .monitoring (.apply objects) =>
      ∀ object ∈ objects, (object.kind, object.name) ∈ Monitoring.objectNames
  | _ => True

theorem Move.concerns {move : Move} (husual : move.IsUsual) {call : Call}
    (hcall : move.call? ns = some call) : call.Concerns ns := by
  cases move with
  | note change => cases hcall
  | channel needed bundle action =>
      cases hcall
      exact rfl
  | monitoring action =>
      cases hcall
      cases action with
      | remove => exact rfl
      | apply objects => exact ⟨rfl, husual⟩

theorem Course.asks_concerns {course : Course} (husual : ∀ move ∈ course, move.IsUsual) :
    Act.Asks (Call.Concerns ns) (course.act ns) :=
  Course.asks fun move hmem _ hcall => Move.concerns (husual move hmem) hcall

theorem isUsual_of_mem_deliveryCourse {restore : Bool} {config : TenantConfig} {set : ArtifactSet}
    {move : Move} (hmem : move ∈ deliveryCourse settings ns restore config set) : move.IsUsual := by
  have hobserve : ∀ move ∈ observeCourse settings ns config, move.IsUsual := by
    intro move hmem
    rw [observeCourse] at hmem
    split at hmem
    · rw [List.mem_singleton.mp hmem]
      exact fun object => Monitoring.mem_objectNames_of_mem_objects
    · cases hmem
  simp only [deliveryCourse, cleanupCourse, publishCourse, List.mem_append, List.mem_cons,
    List.not_mem_nil, or_false] at hmem
  rcases hmem with (((rfl | rfl) | rfl | rfl) | hmem) | rfl
  all_goals first | exact hobserve move hmem | trivial

theorem asks_prepare : Act.Asks (Call.Concerns ns) (prepare record ns) := by
  have hknown {α : Type} (result : Except ReconcileError α) :
      Act.Asks (Call.Concerns ns) (prepare.liftExcept result) := fun _ => trivial
  have hpure {α : Type} (result : α) : Act.Asks (Call.Concerns ns) (pure result : Act α) :=
    fun _ => trivial
  have hsecret (config : TenantConfig) (ctx : ClusterContext) :
      Act.Asks (Call.Concerns ns) (resolveSecret ns config ctx) := by
    rw [resolveSecret]
    split
    · exact hpure ctx
    · split
      · exact hpure ctx
      · exact .bind (Act.asks_call rfl) fun found => hpure _
  have hconfigMap (config : TenantConfig) (ctx : ClusterContext) :
      Act.Asks (Call.Concerns ns) (resolveConfigMap ns config ctx) := by
    rw [resolveConfigMap]
    split
    · exact hpure ctx
    · split
      · exact hpure ctx
      · exact .bind (Act.asks_call rfl) fun found => hpure _
  refine .bind (hknown _) fun config => .bind (.bind (Act.asks_call rfl) fun found => ?_) fun ctx =>
    .bind (hknown _) fun set => hpure _
  cases found with
  | none => exact fun _ => trivial
  | some cluster => exact .bind (hsecret _ _) fun ctx => hconfigMap _ ctx

/-- Every transition makes calls for the tenant of its namespace only. -/
theorem asks_transit (transition : Transition) :
    Act.Asks (Call.Concerns ns) (transit settings record ns transition) := by
  cases transition with
  | enable restore =>
      rw [transit, enable_eq]
      refine .bind asks_prepare fun prepared => ?_
      exact Course.asks_concerns fun move hmem => isUsual_of_mem_deliveryCourse hmem
  | disable =>
      rw [transit, disable_eq]
      refine .bind (Act.asks_call rfl) fun found => Course.asks_concerns ?_
      cases hstays : found.any fun cluster => !cluster.metadata.deleting <;>
        simp [removalCourse, hstays, withdrawalCourse, cleaningCourse, cleanupCourse, endCourse,
          Move.IsUsual]
  | forceDelete =>
      rw [transit, forceDelete_eq]
      exact Course.asks_concerns (by simp [forceCourse, endCourse, Move.IsUsual])
  | migrate =>
      rw [transit, migrate_eq]
      refine Course.asks_concerns ?_
      simp [handoverCourse, withdrawalCourse, cleanupCourse, endCourse, Move.IsUsual]
  | retain => exact fun _ => trivial

end Calls

/-- The kinds of the objects that are made for a tenant. -/
def ResourceKind.ofTenant : List ResourceKind :=
  [.bundle, .prometheusRule, .scrapeConfig, .configMap]

namespace TenantRecord

/-- The objects that a look at a record may depend on: those of its namespace, and the description of
the cluster that the namespace belongs to. -/
def Sees (record : TenantRecord) (key : ObjectKey) : Prop :=
  ∃ ns, record.metadata.ns = some ns ∧ (key.ns = some ns ∨ key = ⟨.cluster, none, ns⟩)

/-- The objects that a look at a record may write: the record, and what is made for its tenant. -/
def Owns (record : TenantRecord) (key : ObjectKey) : Prop :=
  ∃ ns, record.metadata.ns = some ns ∧
    (key = Controller.recordKey ns (record.metadata.name.getD "") ∨
      key.ns = some ns ∧ key.kind ∈ ResourceKind.ofTenant)

variable {record : TenantRecord} {key : ObjectKey}

theorem Owns.exists_ns (howns : record.Owns key) :
    ∃ ns, record.metadata.ns = some ns ∧ key.ns = some ns := by
  obtain ⟨ns, hns, rfl | ⟨hkey, -⟩⟩ := howns
  · exact ⟨ns, hns, rfl⟩
  · exact ⟨ns, hns, hkey⟩

theorem Owns.sees (howns : record.Owns key) : record.Sees key := by
  obtain ⟨ns, hns, hkey⟩ := howns.exists_ns
  exact ⟨ns, hns, Or.inl hkey⟩

end TenantRecord

/-- A request in a look at a record: an object that the look sees is read, or one that it owns is
written. -/
def ApiRequest.Concerns (record : TenantRecord) (request : ApiRequest) : Prop :=
  ∃ key, request.key? = some key ∧ record.Sees key ∧ (request = .get key ∨ record.Owns key)

def ApiQuestion.Concerns (record : TenantRecord) (question : ApiQuestion) : Prop :=
  ∀ request, question.request? = some request → request.Concerns record

theorem Monitoring.kind_of_mem_objectNames {object : ResourceKind × String}
    (hmem : object ∈ objectNames) : object.1 ∈ ResourceKind.ofTenant := by
  revert object
  decide

theorem Call.Makes.concerns {call : Call} {request : ApiRequest} {record : TenantRecord}
    {ns : String} (hmakes : call.Makes request) (hcall : call.Concerns ns)
    (hns : record.metadata.ns = some ns) : request.Concerns record := by
  -- An object of the namespace is read, or it is one of a tenant's kinds and may be written.
  have hread (kind : ResourceKind) (name : String) :
      (ApiRequest.get ⟨kind, some ns, name⟩).Concerns record :=
    ⟨_, rfl, ⟨ns, hns, Or.inl rfl⟩, Or.inl rfl⟩
  have hwrite {kind : ResourceKind} {name : String} (hkind : kind ∈ ResourceKind.ofTenant)
      {made : ApiRequest} (hkey : made.key? = some ⟨kind, some ns, name⟩) : made.Concerns record :=
    ⟨_, hkey, ⟨ns, hns, Or.inl rfl⟩, Or.inr ⟨ns, hns, Or.inr ⟨rfl, hkind⟩⟩⟩
  cases call with
  | cluster other =>
      obtain rfl := hcall
      obtain rfl := hmakes
      exact ⟨_, rfl, ⟨other, hns, Or.inr rfl⟩, Or.inl rfl⟩
  | secret other name =>
      obtain rfl := hcall
      obtain rfl := hmakes
      exact hread _ _
  | configMap other name =>
      obtain rfl := hcall
      obtain rfl := hmakes
      exact hread _ _
  | channel other bundle action =>
      obtain rfl := hcall
      cases action with
      | await state seconds =>
          obtain rfl := hmakes
          exact hread _ _
      | _ =>
          obtain rfl := hmakes
          exact hwrite List.mem_cons_self rfl
  | monitoring other action =>
      cases action with
      | remove =>
          obtain rfl := hcall
          obtain ⟨object, hmem, rfl⟩ := hmakes
          exact hwrite (Monitoring.kind_of_mem_objectNames hmem) rfl
      | apply objects =>
          obtain ⟨rfl, hobjects⟩ := hcall
          obtain ⟨object, hmem, rfl⟩ := hmakes
          exact hwrite (Monitoring.kind_of_mem_objectNames (hobjects object hmem)) rfl

/-- A look at a record sees and writes what it may, whatever is answered. -/
theorem Controller.asks_concerns (settings : Settings) (record : TenantRecord) :
    (reconcile settings record).Asks (ApiQuestion.Concerns record) := by
  have hcalls (ns : String) (hns : record.metadata.ns = some ns) :
      Act.Asks (fun call => ∀ other, record.metadata.ns = some other → call.Concerns other)
        (transit settings record ns (Transition.plan record)) := by
    refine fun status => (asks_transit _ status).mono fun call hcall other hother => ?_
    obtain rfl := Option.some.inj (hns.symm.trans hother)
    exact hcall
  refine (asks_reconcile hcalls).mono fun question hquestion request hrequest => ?_
  obtain ⟨ns, hns, ⟨call, hcall, hinvolves⟩ | habout⟩ := hquestion
  · exact (hinvolves.makes hrequest).concerns (hcall ns hns) hns
  · exact ⟨_, habout.key?_eq hrequest, ⟨ns, hns, Or.inl rfl⟩, Or.inr ⟨ns, hns, Or.inl rfl⟩⟩

end LogForwarding
