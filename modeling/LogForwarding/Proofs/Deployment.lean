import LogForwarding.Reconcile.Actuator

/-!
What the calls of transitions bring about in a cluster.  A call that fails or is given up brings
about nothing.
-/

namespace LogForwarding

/-- What stands in a cluster for its tenants. -/
structure Deployment where
  /-- What is wanted of the bundle of a namespace and a name, if it is there. -/
  bundle? : String → String → Option BundleSpec
  /-- The object of a namespace, a kind and a name by which a tenant is observed, if it is there. -/
  observer? : String → ResourceKind → String → Option Json

/-- The objects that are written for a tenant are among those that are removed. -/
theorem Monitoring.mem_objectNames_of_mem_objects {ns : String} {audit : Bool}
    {settings : MonitoringSettings} {object : ManagedObject}
    (hmem : object ∈ Monitoring.objects ns audit settings) :
    (object.kind, object.name) ∈ Monitoring.objectNames := by
  rcases List.mem_cons.mp hmem with rfl | hmem
  · exact List.mem_cons_self
  · rcases List.mem_cons.mp hmem with rfl | hmem
    · exact List.mem_cons_of_mem _ List.mem_cons_self
    · obtain rfl := List.mem_singleton.mp hmem
      exact List.mem_cons_of_mem _ (List.mem_cons_of_mem _ List.mem_cons_self)

/-- What an action makes of a bundle. -/
def ChannelAction.effect : ChannelAction → Option BundleSpec → Option BundleSpec
  | .publish payload, _ => some ⟨payload, false⟩
  | .keep, found => found.map fun spec => ⟨spec.payload, true⟩
  | .withdraw, _ => none
  | .await _ _, found => found

/-- What an action makes of the objects by which a tenant is observed. -/
def MonitoringAction.effect (found : ResourceKind → String → Option Json) :
    MonitoringAction → ResourceKind → String → Option Json
  | .apply objects, kind, name =>
      match objects.reverse.find? fun object => object.kind = kind ∧ object.name = name with
      | some object => some object.body
      | none => found kind name
  | .remove, kind, name => if (kind, name) ∈ Monitoring.objectNames then none else found kind name

namespace Deployment

/-- Nothing stands in the cluster. -/
def nothing : Deployment := ⟨fun _ _ => none, fun _ _ _ => none⟩

/-- The deployment with another state of a bundle. -/
def setBundle (deployment : Deployment) (ns bundle : String) (spec : Option BundleSpec) :
    Deployment where
  bundle? ns' bundle' := if ns' = ns ∧ bundle' = bundle then spec else deployment.bundle? ns' bundle'
  observer? := deployment.observer?

/-- The deployment with other objects by which the tenant of a namespace is observed. -/
def setObservers (deployment : Deployment) (ns : String)
    (observers : ResourceKind → String → Option Json) : Deployment where
  bundle? := deployment.bundle?
  observer? ns' := if ns' = ns then observers else deployment.observer? ns'

variable (deployment : Deployment) (ns bundle : String)

@[simp] theorem bundle?_setBundle (spec : Option BundleSpec) (ns' bundle' : String) :
    (deployment.setBundle ns bundle spec).bundle? ns' bundle' =
      if ns' = ns ∧ bundle' = bundle then spec else deployment.bundle? ns' bundle' := rfl

@[simp] theorem observer?_setBundle (spec : Option BundleSpec) :
    (deployment.setBundle ns bundle spec).observer? = deployment.observer? := rfl

@[simp] theorem bundle?_setObservers (observers : ResourceKind → String → Option Json) :
    (deployment.setObservers ns observers).bundle? = deployment.bundle? := rfl

@[simp] theorem observer?_setObservers (observers : ResourceKind → String → Option Json)
    (ns' : String) :
    (deployment.setObservers ns observers).observer? ns' =
      if ns' = ns then observers else deployment.observer? ns' := rfl

end Deployment

/-- What a call brings about, as it was answered. -/
def Call.effect : (call : Call) → call.Answer → Deployment → Deployment
  | .channel ns bundle action, .ok _, deployment =>
      deployment.setBundle ns bundle (action.effect (deployment.bundle? ns bundle))
  | .monitoring ns action, .ok _, deployment =>
      deployment.setObservers ns (action.effect (deployment.observer? ns))
  | _, _, deployment => deployment

/-- A call that does not succeed has no effect. -/
theorem Call.effect_of_error {call : Call} {answer : call.Answer} {error : ReconcileError}
    (herror : call.outcome answer = .error error) (deployment : Deployment) :
    call.effect answer deployment = deployment := by
  cases answer with
  | ok result => cases herror
  | failed error => cases call <;> rfl
  | cancelled => cases call <;> rfl

end LogForwarding
