import LogForwarding.Proofs.Resolution

/-!
What validation tells of a document.  The fields that can be at fault are places in the document,
which have an order and are written as paths.  A check reports exactly the places whose constraint
is violated, in their order; this is shown for the checks of single fields and kept by the ways of
putting checks together.
-/

namespace LogForwarding

/-! ### Places of a document -/

/-- The path of an item of a list. -/
def itemPath (path : String) (index : Nat) : String :=
  path ++ "[" ++ toString index ++ "]"

/-- What can be at fault in a rule. -/
inductive RuleField where
  /-- The rule as a whole. -/
  | whole
  | severity
  | programName (index : Nat)
  | regex
  | exclude

/-- What can be at fault in the security settings. -/
inductive TlsField where
  | authMode
  | tlsLib
  | permittedPeer (index : Nat)
  | secretReference

/-- What can be at fault in a document. -/
inductive FieldPath where
  | target
  | port
  | loggingRules
  | rule (index : Nat) (field : RuleField)
  | tls (field : TlsField)
  | auditReference

theorem itemPath_append (path rest : String) (index : Nat) :
    itemPath (path ++ rest) index = path ++ itemPath rest index := by
  simp only [itemPath, String.append_assoc]

/-- The path of a field of a rule, behind that of the rule. -/
def RuleField.text : RuleField → String
  | .whole => ""
  | .severity => ".severity"
  | .programName index => itemPath ".programNames" index
  | .regex => ".messageContent.regex"
  | .exclude => ".messageContent.exclude"

/-- The path of a field of the security settings, behind that of the settings. -/
def TlsField.text : TlsField → String
  | .authMode => ".authMode"
  | .tlsLib => ".tlsLib"
  | .permittedPeer index => itemPath ".permittedPeer" index
  | .secretReference => ".secretReferenceName"

def FieldPath.text : FieldPath → String
  | .target => "target"
  | .port => "port"
  | .loggingRules => "loggingRules"
  | .rule index field => itemPath "loggingRules" index ++ field.text
  | .tls field => "tls" ++ field.text
  | .auditReference => auditReferenceField

/-- Where a field of a rule stands in the rule. -/
def RuleField.position : RuleField → List Nat
  | .whole => []
  | .severity => [0]
  | .programName index => [1, index]
  | .regex => [2]
  | .exclude => [3]

def TlsField.position : TlsField → List Nat
  | .authMode => [0]
  | .tlsLib => [1]
  | .permittedPeer index => [2, index]
  | .secretReference => [3]

def FieldPath.position : FieldPath → List Nat
  | .target => [0]
  | .port => [1]
  | .loggingRules => [2]
  | .rule index field => 2 :: index :: field.position
  | .tls field => 3 :: field.position
  | .auditReference => [4]

/-- Document order. -/
instance : LT RuleField := ⟨fun a b => a.position < b.position⟩

instance : LT TlsField := ⟨fun a b => a.position < b.position⟩

instance : LT FieldPath := ⟨fun a b => a.position < b.position⟩

theorem RuleField.lt_def {a b : RuleField} : a < b ↔ a.position < b.position := Iff.rfl

theorem TlsField.lt_def {a b : TlsField} : a < b ↔ a.position < b.position := Iff.rfl

theorem FieldPath.lt_def {a b : FieldPath} : a < b ↔ a.position < b.position := Iff.rfl

theorem FieldPath.rule_lt_rule {index : Nat} {a b : RuleField} (hlt : a < b) :
    FieldPath.rule index a < .rule index b :=
  List.cons_lt_cons_iff.mpr (Or.inr ⟨rfl, List.cons_lt_cons_iff.mpr (Or.inr ⟨rfl, hlt⟩)⟩)

theorem FieldPath.tls_lt_tls {a b : TlsField} (hlt : a < b) : FieldPath.tls a < .tls b :=
  List.cons_lt_cons_iff.mpr (Or.inr ⟨rfl, hlt⟩)

/-! ### Paths tell places apart -/

theorem toList_toString (index : Nat) : (toString index).toList = Nat.toDigits 10 index := by
  rw [Nat.toString_eq_ofList_toDigits, String.toList_ofList]

theorem bracket_notMem_toString (index : Nat) : ']' ∉ (toString index).toList := by
  rw [toList_toString]
  intro hmem
  exact absurd (Nat.isDigit_of_mem_toDigits (by decide) (by decide) hmem) (by decide)

/-- The first closing bracket splits a text in one way only. -/
theorem append_bracket_inj {x y r s : List Char} (hx : ']' ∉ x) (hy : ']' ∉ y)
    (heq : x ++ ']' :: r = y ++ ']' :: s) : x = y ∧ r = s := by
  induction x generalizing y with
  | nil =>
      cases y with
      | nil => exact ⟨rfl, (List.cons.inj heq).2⟩
      | cons c y => exact absurd ((List.cons.inj heq).1 ▸ List.mem_cons_self) hy
  | cons c x ih =>
      cases y with
      | nil => exact absurd ((List.cons.inj heq).1 ▸ List.mem_cons_self) hx
      | cons d y =>
          obtain ⟨rfl, htail⟩ := List.cons.inj heq
          obtain ⟨rfl, hrest⟩ := ih (fun hmem => hx (List.mem_cons_of_mem c hmem))
            (fun hmem => hy (List.mem_cons_of_mem c hmem)) htail
          exact ⟨rfl, hrest⟩

theorem itemPath_append_inj {path rest rest' : String} {index index' : Nat}
    (heq : itemPath path index ++ rest = itemPath path index' ++ rest') :
    index = index' ∧ rest = rest' := by
  have hchars := congrArg String.toList heq
  simp only [itemPath, String.toList_append, List.append_assoc] at hchars
  have hitem := List.append_cancel_left (List.append_cancel_left hchars)
  obtain ⟨hindex, hrest⟩ := append_bracket_inj (bracket_notMem_toString index)
    (bracket_notMem_toString index') hitem
  rw [toList_toString, toList_toString] at hindex
  have hnumber := congrArg (Nat.ofDigitChars 10 · 0) hindex
  rw [Nat.ofDigitChars_ten_toDigits, Nat.ofDigitChars_ten_toDigits] at hnumber
  exact ⟨hnumber, String.toList_inj.mp hrest⟩

theorem itemPath_inj {path : String} {index index' : Nat}
    (heq : itemPath path index = itemPath path index') : index = index' := by
  have happend : itemPath path index ++ "" = itemPath path index' ++ "" := by rw [heq]
  exact (itemPath_append_inj happend).1

theorem RuleField.text_injective {a b : RuleField} (heq : a.text = b.text) : a = b := by
  have hchars := congrArg String.toList heq
  cases a <;> cases b <;> simp [text, itemPath] at hchars ⊢
  exact itemPath_inj heq

theorem TlsField.text_injective {a b : TlsField} (heq : a.text = b.text) : a = b := by
  have hchars := congrArg String.toList heq
  cases a <;> cases b <;> simp [text, itemPath] at hchars ⊢
  exact itemPath_inj heq

theorem FieldPath.text_injective {a b : FieldPath} (heq : a.text = b.text) : a = b := by
  have hchars := congrArg String.toList heq
  cases a <;> cases b <;> simp [text, itemPath, auditReferenceField] at hchars ⊢
  case rule.rule =>
    obtain ⟨hindex, hfield⟩ := itemPath_append_inj heq
    exact ⟨hindex, RuleField.text_injective hfield⟩
  case tls.tls => exact TlsField.text_injective (String.toList_inj.mp hchars)

/-! ### Violated constraints -/

/-- Whether a text holds what cannot stand in the forwarder configuration. -/
def HasControl (text : String) : Prop :=
  ∃ c ∈ text.toList, Text.isControl c

/-- A pattern that is not printable, or no POSIX extended regular expression. -/
def IsUnusablePattern (pattern : String) : Prop :=
  HasControl pattern ∨ ∃ error, Ere.compile pattern = .error error

def LoggingRule.Violates (rule : LoggingRule) : RuleField → Prop
  | .whole => rule.isEmpty
  | .severity => ∃ n, rule.severity = some n ∧ ¬ (0 ≤ n.toInt ∧ n.toInt ≤ 7)
  | .programName index => ∃ name, rule.programNames[index]? = some name ∧ HasControl name
  | .regex => ∃ content pattern, rule.messageContent = some content ∧
      content.regex = some pattern ∧ IsUnusablePattern pattern
  | .exclude => ∃ content pattern, rule.messageContent = some content ∧
      content.exclude = some pattern ∧ IsUnusablePattern pattern

/-- A reference that leads to a Secret with key material. -/
def ClusterContext.HasSecret (ctx : ClusterContext) (reference : String) : Prop :=
  ∃ named secret, ctx.reference? reference = some named ∧ named.target.kind = "Secret" ∧
    ctx.secret? reference = some secret ∧ secret.Usable

/-- A reference that leads to a ConfigMap with audit rules. -/
def ClusterContext.HasRules (ctx : ClusterContext) (reference : String) : Prop :=
  ∃ named configMap rules, ctx.reference? reference = some named ∧
    named.target.kind = "ConfigMap" ∧ ctx.configMap? reference = some configMap ∧
      configMap.HoldsRules rules

def TlsConfig.Violates (tls : TlsConfig) (ctx : ClusterContext) : TlsField → Prop
  | .authMode => ∃ mode, tls.authMode = some mode ∧ mode ∉ ["name", "fingerprint"]
  | .tlsLib => ∃ library, tls.tlsLib = some library ∧ library ∉ ["openssl", "gnutls"]
  | .permittedPeer index => ∃ peer, tls.permittedPeer[index]? = some peer ∧
      (peer = "" ∨ HasControl peer)
  | .secretReference => tls.enabled ∧ ¬ ∃ reference, tls.secretReferenceName = some reference ∧
      reference ≠ "" ∧ ctx.HasSecret reference

def AuditConfig.Violates (audit : AuditConfig) (ctx : ClusterContext) : Prop :=
  audit.enabled ∧ ∃ reference, audit.configMapReferenceName = some reference ∧
    ¬ (reference ≠ "" ∧ ctx.HasRules reference)

/-- Whether the constraint of a field is violated. -/
def TenantConfig.Violates (config : TenantConfig) (ctx : ClusterContext) : FieldPath → Prop
  | .target => config.target = "" ∨ HasControl config.target
  | .port => ¬ (0 ≤ config.port.toInt ∧ config.port.toInt ≤ 65535)
  | .loggingRules => config.loggingRules = []
  | .rule index field => ∃ rule, config.loggingRules[index]? = some rule ∧ rule.Violates field
  | .tls field => ∃ tls, config.tls = some tls ∧ tls.Violates ctx field
  | .auditReference => ∃ audit, config.auditConfig = some audit ∧ audit.Violates ctx

/-! ### Reports -/

section Reports

variable {Place Other : Type} [LT Place] [LT Other] {text : Place → String} {errors : FieldErrors}
  {bad : Place → Prop}

/-- The errors name the bad places and no others, each once and in order. -/
def Reports (text : Place → String) (errors : FieldErrors) (bad : Place → Prop) : Prop :=
  ∃ places : List Place, errors.map FieldError.field = places.map text ∧
    places.Pairwise (· < ·) ∧ ∀ place, place ∈ places ↔ bad place

theorem Reports.congr {bad' : Place → Prop} (hreports : Reports text errors bad)
    (hbad : ∀ place, bad place ↔ bad' place) : Reports text errors bad' := by
  obtain ⟨places, hfields, hsorted, hmem⟩ := hreports
  exact ⟨places, hfields, hsorted, fun place => (hmem place).trans (hbad place)⟩

theorem Reports.nil (hbad : ∀ place, ¬ bad place) : Reports text [] bad :=
  ⟨[], rfl, List.Pairwise.nil, fun place => iff_of_false List.not_mem_nil (hbad place)⟩

/-- The only constraint of a place that is checked is violated. -/
theorem Reports.fault (place : Place) {violated : Prop} {error : FieldError}
    (hfield : error.field = text place) (hviolated : violated) :
    Reports text [error] (fun other => other = place ∧ violated) := by
  refine ⟨[place], by rw [List.map_singleton, List.map_singleton, hfield],
    List.pairwise_singleton _ _, ?_⟩
  intro other
  simp only [List.mem_singleton, hviolated, and_true]

/-- The only constraint of a place that is checked holds. -/
theorem Reports.pass {place : Place} {violated : Prop} (hgood : ¬ violated) :
    Reports text [] (fun other => other = place ∧ violated) :=
  .nil fun _ hother => hgood hother.2

/-- Checks of places that come one after the other. -/
theorem Reports.append {more : FieldErrors} {bad' : Place → Prop}
    (hreports : Reports text errors bad) (hmore : Reports text more bad')
    (hlt : ∀ first last, bad first → bad' last → first < last) :
    Reports text (errors ++ more) (fun place => bad place ∨ bad' place) := by
  obtain ⟨places, hfields, hsorted, hmem⟩ := hreports
  obtain ⟨places', hfields', hsorted', hmem'⟩ := hmore
  refine ⟨places ++ places', ?_, ?_, ?_⟩
  · rw [List.map_append, List.map_append, hfields, hfields']
  · refine List.pairwise_append.mpr ⟨hsorted, hsorted', ?_⟩
    intro first hfirst last hlast
    exact hlt first last ((hmem first).mp hfirst) ((hmem' last).mp hlast)
  · intro place
    rw [List.mem_append, hmem, hmem']

/-- The places of a part are places of the whole. -/
theorem Reports.map {other : Other → String} (place : Other → Place) {bad : Other → Prop}
    (hreports : Reports other errors bad) (htext : ∀ part, text (place part) = other part)
    (hlt : ∀ first last, first < last → place first < place last) :
    Reports text errors (fun whole => ∃ part, whole = place part ∧ bad part) := by
  obtain ⟨parts, hfields, hsorted, hmem⟩ := hreports
  refine ⟨parts.map place, ?_, ?_, ?_⟩
  · rw [hfields, List.map_map]
    exact List.map_congr_left fun part _ => (htext part).symm
  · exact hsorted.map place fun {first last} => hlt first last
  · intro whole
    simp only [List.mem_map, hmem]
    constructor
    · rintro ⟨part, hpart, rfl⟩
      exact ⟨part, rfl, hpart⟩
    · rintro ⟨part, rfl, hpart⟩
      exact ⟨part, hpart, rfl⟩

/-- Checks of the items of a list, with their places in order. -/
theorem Reports.flatten {Item : Type} {items : List Item} {check : Item → FieldErrors}
    {bad : Item → Place → Prop} (hreports : ∀ item ∈ items, Reports text (check item) (bad item))
    (hlt : items.Pairwise fun item later =>
      ∀ first last, bad item first → bad later last → first < last) :
    Reports text (items.map check).flatten (fun place => ∃ item ∈ items, bad item place) := by
  induction items with
  | nil => exact .nil (by simp)
  | cons item items ih =>
      obtain ⟨hhead, htail⟩ := List.forall_mem_cons.mp hreports
      obtain ⟨hitem, hitems⟩ := List.pairwise_cons.mp hlt
      have happend := hhead.append (ih htail hitems) fun first last hfirst hlast => by
        obtain ⟨later, hlater, hlast⟩ := hlast
        exact hitem later hlater first last hfirst hlast
      refine happend.congr fun place => ?_
      simp only [List.mem_cons, exists_eq_or_imp]

/-- The items of a list are checked with their places. -/
theorem Reports.each {α : Type} {path : String} {check : String → α → FieldErrors} {items : List α}
    {bad : Nat → α → Place → Prop}
    (hreports : ∀ index item, items[index]? = some item →
      Reports text (check (itemPath path index) item) (bad index item))
    (hlt : ∀ index later item other first last, index < later → bad index item first →
      bad later other last → first < last) :
    Reports text (checkEach path check items)
      (fun place => ∃ index item, items[index]? = some item ∧ bad index item place) := by
  have hsorted : items.zipIdx.Pairwise fun item later => item.2 < later.2 := by
    apply List.pairwise_map.mp
    rw [List.zipIdx_map_snd]
    exact List.pairwise_lt_range'
  have hitems : ∀ pair ∈ items.zipIdx,
      Reports text (check (itemPath path pair.2) pair.1) (bad pair.2 pair.1) := by
    intro pair hpair
    exact hreports pair.2 pair.1 (List.mem_zipIdx_iff_getElem?.mp hpair)
  have hpairs := hsorted.imp fun {pair later} hindex first last =>
    hlt pair.2 later.2 pair.1 later.1 first last hindex
  refine (Reports.flatten hitems hpairs).congr fun place => ?_
  constructor
  · rintro ⟨⟨item, index⟩, hpair, hbad⟩
    exact ⟨index, item, List.mem_zipIdx_iff_getElem?.mp hpair, hbad⟩
  · rintro ⟨index, item, hitem, hbad⟩
    exact ⟨(item, index), List.mem_zipIdx_iff_getElem?.mpr hitem, hbad⟩

/-- The items of a list have one place each. -/
theorem Reports.items {α : Type} {path : String} {check : String → α → FieldErrors}
    {items : List α} {violated : α → Prop} (place : Nat → Place)
    (hreports : ∀ index item, Reports text (check (itemPath path index) item)
      (fun other => other = place index ∧ violated item))
    (hlt : ∀ index later, index < later → place index < place later) :
    Reports text (checkEach path check items)
      (fun other => ∃ index, other = place index ∧
        ∃ item, items[index]? = some item ∧ violated item) := by
  have heach : Reports text (checkEach path check items) (fun other => ∃ index item,
      items[index]? = some item ∧ other = place index ∧ violated item) := by
    refine .each (fun index item _ => hreports index item) ?_
    rintro index later _ _ _ _ hlater ⟨rfl, -⟩ ⟨rfl, -⟩
    exact hlt index later hlater
  refine heach.congr fun other => ?_
  constructor
  · rintro ⟨index, item, hitem, hother, hviolated⟩
    exact ⟨index, hother, item, hitem, hviolated⟩
  · rintro ⟨index, hother, item, hitem, hviolated⟩
    exact ⟨index, item, hitem, hother, hviolated⟩

/-! ### Checks of one place -/

variable {place : Place}

theorem firstControl_eq_none {value : String} : firstControl value = none ↔ ¬ HasControl value := by
  rw [firstControl, List.find?_eq_none, HasControl]
  simp only [not_exists, not_and]

theorem hasControl_of_firstControl {value : String} {c : Char}
    (hfirst : firstControl value = some c) : HasControl value :=
  ⟨c, List.mem_of_find?_eq_some hfirst, List.find?_some hfirst⟩

theorem reports_printable (text : Place → String) (place : Place) (value : String) :
    Reports text (checkPrintable (text place) value)
      (fun other => other = place ∧ HasControl value) := by
  rw [checkPrintable]
  cases hfirst : firstControl value with
  | none => exact .pass (firstControl_eq_none.mp hfirst)
  | some c => exact .fault _ rfl (hasControl_of_firstControl hfirst)

/-- A fault that hides all others of its place. -/
theorem Reports.ite {condition violated : Prop} [Decidable condition] {error : FieldError}
    {more : FieldErrors} (hfield : error.field = text place)
    (hmore : ¬ condition → Reports text more (fun other => other = place ∧ violated)) :
    Reports text (if condition then [error] else more)
      (fun other => other = place ∧ (condition ∨ violated)) := by
  by_cases hcondition : condition
  · rw [if_pos hcondition]
    exact .fault _ hfield (Or.inl hcondition)
  · rw [if_neg hcondition]
    refine (hmore hcondition).congr fun other => ?_
    simp only [hcondition, false_or]

theorem reports_target (target : String) : Reports FieldPath.text (checkTarget target)
    (fun other => other = .target ∧ (target = "" ∨ HasControl target)) :=
  .ite rfl fun _ => reports_printable FieldPath.text .target target

theorem reports_port (port : Int32) : Reports FieldPath.text (checkPort port)
    (fun other => other = .port ∧ ¬ (0 ≤ port.toInt ∧ port.toInt ≤ 65535)) := by
  rw [checkPort]
  split
  · exact .fault _ rfl (by omega)
  · split
    · rename_i hlow hhigh
      rw [maxPort] at hhigh
      exact .fault _ rfl (by omega)
    · rename_i hlow hhigh
      rw [maxPort] at hhigh
      exact .pass (by omega)

theorem reports_peer (text : Place → String) (place : Place) (peer : String) :
    Reports text (checkPeer (text place) peer)
      (fun other => other = place ∧ (peer = "" ∨ HasControl peer)) :=
  .ite rfl fun _ => reports_printable text place peer

theorem reports_severity (path : String) (severity : Option Int32) :
    Reports (fun part : RuleField => path ++ part.text) (checkSeverity path severity)
      (fun other => other = .severity ∧
        ∃ n, severity = some n ∧ ¬ (0 ≤ n.toInt ∧ n.toInt ≤ 7)) := by
  cases severity with
  | none => exact .pass (by simp)
  | some n =>
      rw [checkSeverity, maxSeverity]
      by_cases hrange : 0 ≤ n.toInt ∧ n.toInt ≤ 7
      · rw [if_pos hrange]
        exact .pass (by simpa using hrange)
      · rw [if_neg hrange]
        exact .fault _ rfl ⟨n, rfl, hrange⟩

theorem reports_pattern (text : Place → String) (place : Place) (pattern : Option String) :
    Reports text (checkPattern (text place) pattern)
      (fun other => other = place ∧ ∃ found, pattern = some found ∧ IsUnusablePattern found) := by
  cases pattern with
  | none => exact .pass (by simp)
  | some pattern =>
      simp only [checkPattern, Option.some.injEq, exists_eq_left']
      cases hfirst : firstControl pattern with
      | some c =>
          have hcontrol := hasControl_of_firstControl hfirst
          refine (reports_printable text place pattern).congr fun other => ?_
          simp only [IsUnusablePattern, hcontrol, true_or]
      | none =>
          cases hcompile : Ere.compile pattern with
          | error error => exact .fault _ rfl (Or.inr ⟨error, hcompile⟩)
          | ok compiled =>
              refine .pass ?_
              rintro (hcontrol | ⟨error, herror⟩)
              · exact firstControl_eq_none.mp hfirst hcontrol
              · cases hcompile.symm.trans herror

theorem reports_allowed (text : Place → String) (place : Place) (allowed : List String)
    (value : Option String) : Reports text (checkAllowed (text place) allowed value)
      (fun other => other = place ∧ ∃ found, value = some found ∧ found ∉ allowed) := by
  cases value with
  | none => exact .pass (by simp)
  | some found =>
      simp only [checkAllowed]
      split
      · rename_i hallowed
        exact .pass (by simpa using hallowed)
      · rename_i hallowed
        exact .fault _ rfl ⟨found, rfl, hallowed⟩

end Reports

/-! ### References -/

theorem field_of_checkReference {field kind reference : String} {ctx : ClusterContext}
    {error : FieldError} (herror : checkReference field kind reference ctx = .error error) :
    error.field = field := by
  rw [checkReference] at herror
  split at herror
  · cases herror
    rfl
  · split at herror
    · cases herror
    · cases herror
      rfl

theorem field_of_tlsSecretFault {reference : String} {ctx : ClusterContext} {error : FieldError}
    (hfault : tlsSecretFault reference ctx = some error) : error.field = tlsReferenceField := by
  rw [tlsSecretFault] at hfault
  split at hfault
  · rename_i herror
    cases hfault
    exact field_of_checkReference herror
  · split at hfault
    · cases hfault
      rfl
    · split at hfault
      · cases hfault
        rfl
      · split at hfault
        · cases hfault
        · cases hfault
          rfl

theorem field_of_auditRulesFault {configMap : ConfigMapSnapshot} {error : FieldError}
    (hfault : auditRulesFault configMap = some error) : error.field = auditReferenceField := by
  rw [auditRulesFault] at hfault
  split at hfault
  · cases hfault
    rfl
  · split at hfault
    · cases hfault
      rfl
    · split at hfault
      · cases hfault
        rfl
      · cases hfault

theorem field_of_auditConfigMapFault {reference : String} {ctx : ClusterContext}
    {error : FieldError} (hfault : auditConfigMapFault reference ctx = some error) :
    error.field = auditReferenceField := by
  rw [auditConfigMapFault] at hfault
  split at hfault
  · rename_i herror
    cases hfault
    exact field_of_checkReference herror
  · split at hfault
    · cases hfault
      rfl
    · split at hfault
      · cases hfault
        rfl
      · split at hfault
        · cases hfault
          rfl
        · split at hfault
          · cases hfault
            rfl
          · exact field_of_auditRulesFault hfault

/-- A fault of a referenced object is told at the reference. -/
theorem Reports.onReference {Place : Type} [LT Place] {text : Place → String} {place : Place}
    {fault : Option FieldError} {found : Prop}
    (hfield : ∀ error, fault = some error → error.field = text place)
    (hfault : fault = none ↔ found) :
    Reports text (fault.map FieldError.onReference).toList
      (fun other => other = place ∧ ¬ found) := by
  cases fault with
  | none => exact .pass (not_not_intro (hfault.mp rfl))
  | some error => 
      refine .fault _ (hfield error rfl) ?_
      intro hfound
      cases hfault.mpr hfound

theorem reports_tlsReference (tls : TlsConfig) (ctx : ClusterContext) :
    Reports (fun part : TlsField => "tls" ++ part.text) (checkTlsReference tls ctx)
      (fun other => other = .secretReference ∧ tls.Violates ctx .secretReference) := by
  rw [checkTlsReference]
  by_cases henabled : tls.enabled
  · rw [if_neg (not_not_intro henabled)]
    split
    · rename_i hname
      refine .fault _ (by rfl) ⟨henabled, ?_⟩
      rintro ⟨reference, hreference, -⟩
      cases hname.symm.trans hreference
    · rename_i hname
      refine .fault _ (by rfl) ⟨henabled, ?_⟩
      rintro ⟨reference, hreference, hempty, -⟩
      cases hname.symm.trans hreference
      exact hempty rfl
    · rename_i reference hempty hname
      have hreport : Reports (fun part : TlsField => "tls" ++ part.text)
          ((tlsSecretFault reference ctx).map FieldError.onReference).toList
          (fun other => other = .secretReference ∧ ¬ ctx.HasSecret reference) :=
        .onReference (fun error herror => (field_of_tlsSecretFault herror).trans (by rfl))
          tlsSecretFault_eq_none
      refine hreport.congr fun other => ?_
      have hreference : reference ≠ "" := hempty
      simp [TlsConfig.Violates, henabled, hname, hreference]
  · rw [if_pos henabled]
    exact .pass fun hviolated => henabled hviolated.1

theorem reports_audit (audit : AuditConfig) (ctx : ClusterContext) :
    Reports FieldPath.text (checkAudit audit ctx)
      (fun other => other = .auditReference ∧ audit.Violates ctx) := by
  rw [checkAudit]
  by_cases henabled : audit.enabled
  · rw [if_neg (not_not_intro henabled)]
    split
    · rename_i hname
      refine .pass ?_
      rintro ⟨-, reference, hreference, -⟩
      cases hname.symm.trans hreference
    · rename_i hname
      exact .fault _ (by rfl) ⟨henabled, "", hname, fun hfound => hfound.1 rfl⟩
    · rename_i reference hempty hname
      have hreport : Reports FieldPath.text
          ((auditConfigMapFault reference ctx).map FieldError.onReference).toList
          (fun other => other = .auditReference ∧ ¬ ctx.HasRules reference) :=
        .onReference (fun _ => field_of_auditConfigMapFault) auditConfigMapFault_eq_none
      refine hreport.congr fun other => ?_
      have hreference : reference ≠ "" := hempty
      simp [AuditConfig.Violates, henabled, hname, hreference]
  · rw [if_pos henabled]
    exact .pass fun hviolated => henabled hviolated.1

/-! ### Rules and settings -/

theorem reports_content (path : String) (rule : LoggingRule) :
    Reports (fun part : RuleField => path ++ part.text) (checkContent path rule.messageContent)
      (fun part => (part = .regex ∧ rule.Violates .regex) ∨
        (part = .exclude ∧ rule.Violates .exclude)) := by
  cases hcontent : rule.messageContent with
  | none => exact .nil fun part => by simp [LoggingRule.Violates, hcontent]
  | some content =>
      have hregex := reports_pattern (fun part : RuleField => path ++ part.text) .regex content.regex
      have hexclude := reports_pattern (fun part : RuleField => path ++ part.text) .exclude
        content.exclude
      refine (hregex.append hexclude ?_).congr fun part => ?_
      · rintro _ _ ⟨rfl, -⟩ ⟨rfl, -⟩
        simp [RuleField.lt_def, RuleField.position, List.cons_lt_cons_iff]
      · simp [LoggingRule.Violates, hcontent]

theorem reports_programNames (path : String) (rule : LoggingRule) :
    Reports (fun part : RuleField => path ++ part.text)
      (checkEach (path ++ ".programNames") checkPrintable rule.programNames)
      (fun part => ∃ index, part = .programName index ∧ rule.Violates (.programName index)) := by
  refine .items RuleField.programName ?_ ?_
  · intro index name
    rw [itemPath_append]
    exact reports_printable (fun part : RuleField => path ++ part.text) (.programName index) name
  · intro index later hlater
    simpa [RuleField.lt_def, RuleField.position, List.cons_lt_cons_iff] using hlater

/-- Of a rule without constraints nothing but that is told. -/
theorem LoggingRule.violates_of_isEmpty {rule : LoggingRule} (hempty : rule.isEmpty)
    (part : RuleField) : rule.Violates part ↔ part = .whole := by
  have hwhole : rule.Violates .whole := hempty
  simp only [LoggingRule.isEmpty, decide_eq_true_eq, Option.all_eq_true] at hempty
  obtain ⟨hnames, hseverity, hcontent⟩ := hempty
  cases part with
  | whole => exact iff_of_true hwhole rfl
  | severity => simp [LoggingRule.Violates, hseverity]
  | programName index => simp [LoggingRule.Violates, hnames]
  | regex =>
      refine iff_of_false ?_ (by simp)
      rintro ⟨content, pattern, hsome, hpattern, -⟩
      have hnone := (hcontent content hsome).1
      cases hnone.symm.trans hpattern
  | exclude =>
      refine iff_of_false ?_ (by simp)
      rintro ⟨content, pattern, hsome, hpattern, -⟩
      have hnone := (hcontent content hsome).2
      cases hnone.symm.trans hpattern

theorem reports_rule (path : String) (rule : LoggingRule) :
    Reports (fun part : RuleField => path ++ part.text) (checkRule path rule) rule.Violates := by
  rw [checkRule]
  by_cases hempty : rule.isEmpty
  · rw [if_pos hempty]
    refine (Reports.fault RuleField.whole ?_ hempty).congr fun part => ?_
    · exact String.append_empty.symm
    · simp only [LoggingRule.violates_of_isEmpty hempty, hempty, and_true]
  · rw [if_neg hempty]
    refine (((reports_severity path rule.severity).append (reports_programNames path rule) ?_).append
      (reports_content path rule) ?_).congr fun part => ?_
    · rintro _ _ ⟨rfl, -⟩ ⟨index, rfl, -⟩
      simp [RuleField.lt_def, RuleField.position, List.cons_lt_cons_iff]
    · rintro _ _ (⟨rfl, -⟩ | ⟨index, rfl, -⟩) (⟨rfl, -⟩ | ⟨rfl, -⟩) <;>
        simp [RuleField.lt_def, RuleField.position, List.cons_lt_cons_iff]
    · cases part <;> simp [LoggingRule.Violates, hempty]

theorem reports_permittedPeer (tls : TlsConfig) (ctx : ClusterContext) :
    Reports (fun part : TlsField => "tls" ++ part.text)
      (checkEach "tls.permittedPeer" checkPeer tls.permittedPeer)
      (fun part => ∃ index, part = .permittedPeer index ∧
        tls.Violates ctx (.permittedPeer index)) := by
  have hpath : "tls.permittedPeer" = "tls" ++ ".permittedPeer" := by decide
  refine .items TlsField.permittedPeer ?_ ?_
  · intro index peer
    rw [hpath, itemPath_append]
    exact reports_peer (fun part : TlsField => "tls" ++ part.text) (.permittedPeer index) peer
  · intro index later hlater
    simpa [TlsField.lt_def, TlsField.position, List.cons_lt_cons_iff] using hlater

theorem reports_tls (tls : TlsConfig) (ctx : ClusterContext) :
    Reports (fun part : TlsField => "tls" ++ part.text) (checkTls tls ctx) (tls.Violates ctx) := by
  have hmode := reports_allowed (fun part : TlsField => "tls" ++ part.text) .authMode
    AuthMode.allowed tls.authMode
  have hlibrary := reports_allowed (fun part : TlsField => "tls" ++ part.text) .tlsLib
    TlsLib.allowed tls.tlsLib
  have hpeers := reports_permittedPeer tls ctx
  have hreference := reports_tlsReference tls ctx
  refine (((hmode.append hlibrary ?_).append hpeers ?_).append hreference ?_).congr fun part => ?_
  · rintro _ _ ⟨rfl, -⟩ ⟨rfl, -⟩
    simp [TlsField.lt_def, TlsField.position, List.cons_lt_cons_iff]
  · rintro _ _ (⟨rfl, -⟩ | ⟨rfl, -⟩) ⟨index, rfl, -⟩ <;>
      simp [TlsField.lt_def, TlsField.position, List.cons_lt_cons_iff]
  · rintro _ _ ((⟨rfl, -⟩ | ⟨rfl, -⟩) | ⟨index, rfl, -⟩) ⟨rfl, -⟩ <;>
      simp [TlsField.lt_def, TlsField.position, List.cons_lt_cons_iff]
  · cases part <;> simp [TlsConfig.Violates, AuthMode.allowed, TlsLib.allowed]

/-! ### Documents -/

section Document

variable (config : TenantConfig) (ctx : ClusterContext)

theorem reports_rules : Reports FieldPath.text (checkRules config.loggingRules)
    (fun path => (path = .loggingRules ∧ config.Violates ctx .loggingRules) ∨
      ∃ index field, path = .rule index field ∧ config.Violates ctx (.rule index field)) := by
  rw [checkRules]
  by_cases hrules : config.loggingRules = []
  · rw [if_pos hrules]
    refine (Reports.fault FieldPath.loggingRules rfl hrules).congr fun path => ?_
    simp [TenantConfig.Violates, hrules]
  · rw [if_neg hrules]
    have heach : Reports FieldPath.text (checkEach "loggingRules" checkRule config.loggingRules)
        (fun path => ∃ index rule, config.loggingRules[index]? = some rule ∧
          ∃ field, path = .rule index field ∧ rule.Violates field) := by
      refine .each ?_ ?_
      · intro index rule _
        exact (reports_rule (itemPath "loggingRules" index) rule).map (FieldPath.rule index)
          (fun field => rfl) (fun first last => FieldPath.rule_lt_rule)
      · rintro index later _ _ _ _ hlater ⟨_, rfl, -⟩ ⟨_, rfl, -⟩
        simp [FieldPath.lt_def, FieldPath.position, List.cons_lt_cons_iff, hlater]
    refine heach.congr fun path => ?_
    constructor
    · rintro ⟨index, rule, hrule, field, rfl, hviolates⟩
      exact Or.inr ⟨index, field, rfl, rule, hrule, hviolates⟩
    · rintro (⟨-, hnone⟩ | ⟨index, field, rfl, rule, hrule, hviolates⟩)
      · exact absurd hnone hrules
      · exact ⟨index, rule, hrule, field, rfl, hviolates⟩

theorem reports_tlsSettings :
    Reports FieldPath.text (config.tls.toList.flatMap fun tls => checkTls tls ctx)
      (fun path => ∃ field, path = .tls field ∧ config.Violates ctx (.tls field)) := by
  cases htls : config.tls with
  | none => exact .nil (by simp [TenantConfig.Violates, htls])
  | some tls =>
      rw [Option.toList_some, List.flatMap_singleton]
      have hsettings : Reports FieldPath.text (checkTls tls ctx)
          (fun path => ∃ field, path = .tls field ∧ tls.Violates ctx field) :=
        (reports_tls tls ctx).map FieldPath.tls (fun field => rfl)
          (fun first last => FieldPath.tls_lt_tls)
      refine hsettings.congr fun path => ?_
      simp [TenantConfig.Violates, htls]

theorem reports_auditSettings :
    Reports FieldPath.text (config.auditConfig.toList.flatMap fun audit => checkAudit audit ctx)
      (fun path => path = .auditReference ∧ config.Violates ctx .auditReference) := by
  cases haudit : config.auditConfig with
  | none => exact .pass (by simp [TenantConfig.Violates, haudit])
  | some audit =>
      rw [Option.toList_some, List.flatMap_singleton]
      refine (reports_audit audit ctx).congr fun path => ?_
      simp [TenantConfig.Violates, haudit]

theorem reports_validate :
    Reports FieldPath.text (config.validate ctx) (config.Violates ctx) := by
  have htarget : Reports FieldPath.text (checkTarget config.target)
      (fun path => path = .target ∧ config.Violates ctx .target) := reports_target config.target
  have hport : Reports FieldPath.text (checkPort config.port)
      (fun path => path = .port ∧ config.Violates ctx .port) := reports_port config.port
  have hrules := reports_rules config ctx
  have htls := reports_tlsSettings config ctx
  have haudit := reports_auditSettings config ctx
  refine ((((htarget.append hport ?_).append hrules ?_).append htls ?_).append haudit ?_).congr
    fun path => ?_
  · rintro _ _ ⟨rfl, -⟩ ⟨rfl, -⟩
    simp [FieldPath.lt_def, FieldPath.position, List.cons_lt_cons_iff]
  · rintro _ _ (⟨rfl, -⟩ | ⟨rfl, -⟩) (⟨rfl, -⟩ | ⟨_, _, rfl, -⟩) <;>
      simp [FieldPath.lt_def, FieldPath.position, List.cons_lt_cons_iff]
  · rintro _ _ ((⟨rfl, -⟩ | ⟨rfl, -⟩) | ⟨rfl, -⟩ | ⟨_, _, rfl, -⟩) ⟨_, rfl, -⟩ <;>
      simp [FieldPath.lt_def, FieldPath.position, List.cons_lt_cons_iff]
  · rintro _ _ (((⟨rfl, -⟩ | ⟨rfl, -⟩) | ⟨rfl, -⟩ | ⟨_, _, rfl, -⟩) | ⟨_, rfl, -⟩) ⟨rfl, -⟩ <;>
      simp [FieldPath.lt_def, FieldPath.position, List.cons_lt_cons_iff]
  · cases path <;> simp [and_assoc]

/-- Validation names exactly the fields whose constraint is violated, each once and in document
order. -/
theorem TenantConfig.validate_fields :
    ∃ paths : List FieldPath,
      (config.validate ctx).map FieldError.field = paths.map FieldPath.text ∧
      paths.Pairwise (· < ·) ∧ (∀ path, path ∈ paths ↔ config.Violates ctx path) ∧
      ((config.validate ctx).map FieldError.field).Nodup := by
  obtain ⟨paths, hfields, hsorted, hmem⟩ := reports_validate config ctx
  refine ⟨paths, hfields, hsorted, hmem, ?_⟩
  rw [hfields]
  refine List.pairwise_map.mpr (hsorted.imp fun {first last} hlt heq => ?_)
  rw [FieldPath.text_injective heq] at hlt
  exact List.lt_irrefl _ hlt

end Document

end LogForwarding
