import LogForwarding.Proofs.Run
import LogForwarding.Proofs.Synthesis

/-!
What a look after a record comes to when nothing fails.  A document without faults asks for nothing
that could not be made, so it is delivered, and a restore that was asked for is answered.
-/

namespace LogForwarding

open Actuator Controller

section Acts

variable {α β σ : Type} {answer : (made : Call) → σ → made.Answer × σ}

/-- When the first part succeeds, the second goes on with what it leaves. -/
theorem Act.run_bind_of_ok {act : Act α} {f : α → Act β} {before middle : RecordStatus}
    {world later : σ} {result : α}
    (hact : (act before).run answer world = ((.ok result, middle), later)) :
    ((act >>= f) before).run answer world = (f result middle).run answer later := by
  rw [Act.run_bind, Dialogue.run_bind, hact]

end Acts

/-- The calls of a record are answered as questions of their own. -/
theorem Care.run_ofCalls {α σ : Type} (calls : Dialogue Call Call.Answer α)
    (answer : (inquiry : Inquiry) → σ → inquiry.Answer × σ) (world : σ) :
    (Care.ofCalls calls).run answer world = calls.run (fun made => answer (.call made)) world :=
  Dialogue.run_interpret _ _ _ _

section Unhindered

variable (cluster : Option Cluster) (stored : Json)

/-- The answers to calls in a world in which nothing fails. -/
def Call.unhindered (made : Call) : Unit → made.Answer × Unit :=
  Inquiry.unhindered cluster stored (.call made)

theorem Move.run_act (ns : String) (move : Move) (status : RecordStatus) :
    (move.act ns status).run (Call.unhindered cluster stored) () =
      ((.ok (), move.noted status), ()) := by
  cases move with
  | channel needed bundle action =>
      by_cases hneeded : needed status
      · rw [act_channel_of_needed hneeded]
        rfl
      · rw [act_channel_of_not_needed hneeded]
        rfl
  | monitoring action => rfl
  | note change => rfl

theorem Course.run_act (ns : String) (course : Course) (status : RecordStatus) :
    (course.act ns status).run (Call.unhindered cluster stored) () =
      ((.ok (), course.noted status), ()) := by
  induction course generalizing status with
  | nil => rfl
  | cons move rest ih =>
      rw [Course.act, Act.run_bind_of_ok (Move.run_act cluster stored ns move status), ih]
      rfl

end Unhindered

section Delivery

variable {cluster : Cluster} {stored : Json} {config : TenantConfig}

/-- No Secret is found, so the view of the cluster stays as it is. -/
theorem run_resolveSecret (ns : String) (config : TenantConfig) (ctx : ClusterContext)
    (status : RecordStatus) :
    (resolveSecret ns config ctx status).run (Call.unhindered (some cluster) stored) () =
      ((.ok ctx, status), ()) := by
  rw [resolveSecret]
  cases secretReference? config with
  | none => rfl
  | some reference =>
      dsimp only
      cases target? ctx "Secret" reference <;> rfl

theorem run_resolveConfigMap (ns : String) (config : TenantConfig) (ctx : ClusterContext)
    (status : RecordStatus) :
    (resolveConfigMap ns config ctx status).run (Call.unhindered (some cluster) stored) () =
      ((.ok ctx, status), ()) := by
  rw [resolveConfigMap]
  cases auditReference? config with
  | none => rfl
  | some reference =>
      dsimp only
      cases target? ctx "ConfigMap" reference <;> rfl

theorem run_resolveContext (ns : String) (config : TenantConfig) (status : RecordStatus) :
    (resolveContext ns config status).run (Call.unhindered (some cluster) stored) () =
      ((.ok cluster.context, status), ()) := by
  have hcall : (call (.cluster ns) status).run (Call.unhindered (some cluster) stored) () =
      ((.ok (some cluster), status), ()) := rfl
  rw [resolveContext]
  refine (Act.run_bind_of_ok hcall).trans ?_
  exact (Act.run_bind_of_ok (run_resolveSecret ns config cluster.context status)).trans
    (run_resolveConfigMap ns config cluster.context status)

/-- The artifacts of a document without faults can be made. -/
theorem exists_artifacts {ctx : ClusterContext} (hvalid : config.withDefaults.validate ctx = []) :
    ∃ set, artifacts config.withDefaults ctx = .ok set := by
  obtain ⟨forwarder, hforwarder⟩ : ∃ forwarder,
      Forwarder.configuration config.withDefaults ctx = .ok forwarder :=
    Template.exists_fill Forwarder.configurationTemplate _
  obtain ⟨rules, -, haudit⟩ :=
    exists_addAuditRules config.isSome_auditConfig_withDefaults hvalid
  obtain ⟨secretName, -, htls⟩ := exists_addTlsFiles hvalid
  obtain ⟨content, hunit⟩ := Node.exists_unit
  obtain ⟨filled, hfilled, -, hunits⟩ :=
    exists_filled config.withDefaults forwarder rules secretName
  have hset : synthesize config.withDefaults ctx =
      filled.addUnit ⟨Node.unitName, true, content⟩ := by
    rw [synthesize_eq hforwarder haudit htls hunit, hfilled]
    rfl
  rw [artifacts, hvalid, hset, ArtifactSet.addUnit, hunits]
  exact ⟨_, rfl⟩

theorem run_prepare {record : TenantRecord} {set : ArtifactSet} (ns : String)
    (status : RecordStatus) (hconfig : tenantConfig record = .ok config)
    (hset : artifacts config.withDefaults cluster.context = .ok set) :
    (prepare record ns status).run (Call.unhindered (some cluster) stored) () =
      ((.ok (config.withDefaults, set), status), ()) := by
  rw [prepare, hconfig]
  refine (Act.run_bind_of_ok rfl).trans ?_
  refine (Act.run_bind_of_ok (run_resolveContext ns config.withDefaults status)).trans ?_
  rw [hset]
  rfl

/-- What is stored is a record, so every change of it is granted. -/
theorem run_change {key : ObjectKey} (hkey : key.name ≠ "") (hgranted : Granted ⟨200, stored⟩)
    (request : ApiRequest) :
    (change key request).run (Inquiry.unhindered (some cluster) stored) () = (.ok (), ()) := by
  obtain ⟨record, hrecord⟩ := hgranted
  rw [change, if_neg hkey]
  change ((ApiResponse.result ⟨200, stored⟩ TenantRecord.decode).map fun _ => (), ()) = _
  rw [hrecord]
  rfl

theorem run_conclude {key : ObjectKey} (hkey : key.name ≠ "") (hgranted : Granted ⟨200, stored⟩)
    (settings : Settings) (restore : Bool) :
    (conclude settings key (.enable restore)).run (Inquiry.unhindered (some cluster) stored) () =
      (.ok (some settings.requeue.success), ()) := by
  cases restore with
  | false => rfl
  | true =>
      rw [conclude, Dialogue.run_bind, run_change hkey hgranted]
      rfl

theorem exists_run_execute {settings : Settings} {record : TenantRecord} {ns : String}
    (hns : record.metadata.ns = some ns) (restore : Bool) (status : RecordStatus)
    (hconfig : tenantConfig record = .ok config)
    (hvalid : config.withDefaults.validate cluster.context = []) :
    ∃ after, (execute settings record (.enable restore) status).run
      (Call.unhindered (some cluster) stored) () = ((.ok (), after), ()) := by
  obtain ⟨set, hset⟩ := exists_artifacts hvalid
  have hexecute : execute settings record (.enable restore) =
      enable settings record ns restore := by
    rw [execute, hns]
    rfl
  rw [hexecute, enable_eq]
  exact ⟨_, (Act.run_bind_of_ok (run_prepare ns status hconfig hset)).trans
    (Course.run_act _ _ ns _ status)⟩

/-- A document without faults is delivered when nothing fails. -/
theorem exists_run_care {settings : Settings} {record : TenantRecord} {ns name : String}
    {restore : Bool} (hnamed : record.Named ns name) (hguarded : record.Guarded)
    (hplan : Transition.plan record = .enable restore) (hconfig : tenantConfig record = .ok config)
    (hvalid : config.withDefaults.validate cluster.context = [])
    (hgranted : Granted ⟨200, stored⟩) :
    ∃ requeue, (care settings record).run (Inquiry.unhindered (some cluster) stored) () =
      (.ok requeue, ()) := by
  obtain ⟨position, hposition⟩ := exists_position_iff.mpr hguarded
  have hdeleting := deleting_of_plan_enable hplan
  have hkey : (recordKey ns name).name ≠ "" := hnamed.name_ne
  obtain ⟨after, hexecuted⟩ : ∃ after, (execute settings record (.enable restore)
      (record.status.getD .initial)).run (Call.unhindered (some cluster) stored) () =
        ((.ok (), after), ()) :=
    exists_run_execute hnamed.ns_eq restore _ hconfig hvalid
  have hcalls := (Care.run_ofCalls _ (Inquiry.unhindered (some cluster) stored) ()).trans hexecuted
  refine ⟨some settings.requeue.success, ?_⟩
  rw [care, hnamed.ns_eq]
  simp only [reconcileIn, hposition, hdeleting, hnamed.name_eq]
  rw [runTransition, hnamed.name_eq, hplan, Dialogue.run_bind]
  dsimp only [Option.getD_some]
  rw [hcalls]
  change (change _ _ >>= _).run _ () = _
  rw [Dialogue.run_bind, run_change hkey hgranted]
  exact run_conclude hkey hgranted settings restore

theorem Episode.unhindered_succeeds {settings : Settings} {before : World} {record : TenantRecord}
    {ns name : String} {restore : Bool} (hstored : record.StoredAs before.record)
    (hnamed : record.Named ns name) (hguarded : record.Guarded)
    (hplan : Transition.plan record = .enable restore) (hconfig : tenantConfig record = .ok config)
    (hvalid : config.withDefaults.validate cluster.context = []) :
    (unhindered settings (some cluster) before record).Succeeds := by
  obtain ⟨requeue, hrun⟩ := exists_run_care hnamed hguarded hplan hconfig hvalid hstored.granted
  exact ⟨requeue, congrArg Prod.fst hrun⟩

end Delivery

section Sample

/-- What the document that asks for grave messages says. -/
def TenantConfig.sampleGrave : TenantConfig :=
  ⟨"10.2.64.54", 80, [⟨[], some 1, none⟩], none, none, none, none, none, none⟩

theorem tenantConfig_eq_sampleGrave {record : TenantRecord}
    (hdocument : record.document = some TenantRecord.sampleDocument) :
    tenantConfig record = .ok .sampleGrave := by
  have hread : (TenantConfig.ofBytes (Bytes.ofText TenantRecord.sampleDocument.print)).toOption =
      some .sampleGrave := by
    decide +kernel
  rw [tenantConfig, hdocument]
  dsimp only
  cases hresult : TenantConfig.ofBytes (Bytes.ofText TenantRecord.sampleDocument.print) with
  | ok config =>
      rw [hresult] at hread
      exact congrArg Except.ok (Option.some.inj hread)
  | error error =>
      rw [hresult] at hread
      cases hread

theorem TenantConfig.sampleGrave_valid :
    sampleGrave.withDefaults.validate Cluster.sample.context = [] := by
  decide +kernel

end Sample

end LogForwarding
