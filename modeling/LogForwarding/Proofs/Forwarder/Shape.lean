import LogForwarding.Forwarder.Configuration
import LogForwarding.Proofs.Forwarder.Layout

/-!
The shape of a document is what is left of it without its texts: how many filters and list entries
there are, which optional fields are set, and the numbers and flags.  It alone decides on the layout
of the configuration, with one block for each filter and one assignment for each parameter.
-/

namespace LogForwarding.Forwarder

/-- What a filter has, without its texts. -/
structure RuleShape where
  /-- How many program names there are. -/
  programNames : Nat
  severity : Option Int32
  regex : Bool
  exclude : Bool
deriving DecidableEq

/-- What the security settings have, without their texts. -/
structure TlsShape where
  authMode : Bool
  permittedPeers : Nat
  tlsLib : Bool
deriving DecidableEq

/-- What a document has, without its texts. -/
structure Shape where
  port : Int32
  rebindInterval : Option Int32
  timeout : Option Int32
  resumeRetryCount : Option Int32
  reportSuspensionContinuation : Option Bool
  /-- Only if the connection is secured. -/
  tls : Option TlsShape
  rules : List RuleShape
deriving DecidableEq

/-- What is left of a filter. -/
def ruleShape (rule : LoggingRule) : RuleShape :=
  ⟨rule.programNames.length, rule.severity, (rule.messageContent.bind (·.regex)).isSome,
    (rule.messageContent.bind (·.exclude)).isSome⟩

def tlsShape (tls : TlsConfig) : TlsShape :=
  ⟨tls.authMode.isSome, tls.permittedPeer.length, tls.tlsLib.isSome⟩

def shape (config : TenantConfig) : Shape :=
  ⟨config.port, config.rebindInterval, config.timeout, config.resumeRetryCount,
    config.reportSuspensionContinuation, config.enabledTls.map tlsShape,
    config.loggingRules.map ruleShape⟩

/-- The texts of a filter in the order of its clauses. -/
def ruleTexts (rule : LoggingRule) : List String :=
  rule.programNames ++ (rule.messageContent.bind (·.regex)).toList ++
    (rule.messageContent.bind (·.exclude)).toList

def tlsTexts (tls : TlsConfig) : List String :=
  tls.authMode.toList ++ tls.permittedPeer

/-- The texts that a configuration carries, in the order of their places. -/
def carriedTexts (config : TenantConfig) (ctx : ClusterContext) : List String :=
  [ctx.projectName, ctx.clusterName, ctx.clusterUid] ++
    (config.enabledTls.bind (·.tlsLib)).toList ++
    ([config.target] ++ config.enabledTls.toList.flatMap tlsTexts) ++
    config.loggingRules.flatMap ruleTexts

/-- The value of a parameter: known from the shape, one text, or a list of texts. -/
inductive Value where
  | known (text : String)
  | carried
  | carriedList (count : Nat)
deriving DecidableEq

def Value.layout : Value → Layout
  | .known text => [some (.literal text)]
  | .carried => [none]
  | .carriedList count => Layout.bracketed count

structure Parameter where
  name : String
  value : Value
deriving DecidableEq

/-- A parameter is one assignment. -/
def Parameter.layout (parameter : Parameter) : Layout :=
  [some (.word parameter.name), some (.symbol '=')] ++ parameter.value.layout

/-- A number as the value of a parameter. -/
def Parameter.number (name : String) (value : Int32) : Parameter :=
  ⟨name, .known (toString value.toInt)⟩

def TlsShape.parameters (shape : TlsShape) : List Parameter :=
  [⟨"tls", .known "on"⟩,
   ⟨"tls.caCert", .known Node.tlsCaCert⟩,
   ⟨"tls.myCert", .known Node.tlsCert⟩,
   ⟨"tls.myPrivKey", .known Node.tlsKey⟩] ++
  (if shape.authMode then [⟨"tls.authMode", .carried⟩] else []) ++
  (if shape.permittedPeers = 0 then []
    else [⟨"tls.permittedPeer", .carriedList shape.permittedPeers⟩])

/-- The parameters of the action that sends to the collector. -/
def Shape.parameters (shape : Shape) : List Parameter :=
  [⟨"target", .carried⟩,
   Parameter.number "port" shape.port,
   ⟨"Template", .known "SyslogForwarderTemplate"⟩] ++
  (shape.rebindInterval.toList.map (Parameter.number "rebindInterval")) ++
  (shape.timeout.toList.map (Parameter.number "timeout")) ++
  (shape.resumeRetryCount.toList.map (Parameter.number "action.resumeRetryCount")) ++
  (shape.reportSuspensionContinuation.toList.map fun report =>
    ⟨"action.reportSuspensionContinuation", .known (if report then "on" else "off")⟩) ++
  [⟨"queue.type", .known "LinkedList"⟩,
   ⟨"queue.size", .known "100000"⟩,
   ⟨"queue.filename", .known "rsyslog-relp-queue"⟩,
   ⟨"queue.spoolDirectory", .known Node.spoolDirectory⟩,
   ⟨"queue.maxDiskSpace", .known "512m"⟩,
   ⟨"queue.saveOnShutdown", .known "on"⟩] ++
  (shape.tls.toList.flatMap TlsShape.parameters)

/-- A clause that asks for a match, or for none. -/
def matchLayout (found : Bool) : Layout :=
  Layout.ofText "re_match($msg, " ++ [none] ++
    Layout.ofText (if found then ") == 1 " else ") == 0 ")

/-- The clauses of a filter, with the ones that it lacks left out. -/
def clauseLayouts (shape : RuleShape) : List Layout :=
  (if shape.programNames = 0 then []
    else [Layout.ofText "$programname == " ++ Layout.bracketed shape.programNames]) ++
  (shape.severity.toList.map fun n =>
    Layout.ofText "$syslogseverity <= " ++ [some (.word (toString n.toInt))]) ++
  (if shape.regex then [matchLayout true] else []) ++
  (if shape.exclude then [matchLayout false] else [])

/-- The settings in front of the name of the project. -/
def preamble : String :=
  Template.unlines
    ["# Managed by rsyslog-relp-configurator. Local changes are overwritten.", "", "global("] ++
  "  workDirectory=\"" ++ Node.spoolDirectory ++ Template.unlines settings ++ "  constant(value="

/-- What stands between two parts of the identity of the cluster. -/
def separator : String :=
  ")\n" ++ Template.unlines [blankField] ++ "  constant(value="

/-- What follows the identity of the cluster. -/
def otherFields : String :=
  Template.unlines (")" :: messageFields.tail) ++ "module(load=\"omrelp\""

/-- What follows the choice of the library, up to the parameters of the action. -/
def actionHead : String :=
  Template.unlines statistics ++ "    binary=\"" ++ Node.statsProgramPath ++ "\"\n" ++
  Template.unlines ["  )", "\x7d", "", "ruleset(name=\"relp_action_ruleset\") \x7b", "  action("] ++
  "    name=\"" ++ actionName ++ "\"\n" ++ Template.unlines ["    type=\"omrelp\""]

/-- What stands between the parameters and the filters. -/
def actionEnd : String := Template.unlines ["  )", "\x7d", ""]

/-- What follows the expression of a filter. -/
def blockBody : String :=
  "then \x7b\n" ++ Template.unlines ["  call relp_action_ruleset", "  stop", "\x7d"]

/-- A filter is one block. -/
def blockLayout (shape : RuleShape) : Layout :=
  [some (.word "if")] ++ ([some (.word "and")].intercalate (clauseLayouts shape) ++
    Layout.ofText blockBody)

/-- The layout of what stands in front of the blocks. -/
def Shape.declarations (shape : Shape) : Layout :=
  Layout.ofText preamble ++ [none] ++ Layout.ofText separator ++ [none] ++
  Layout.ofText separator ++ [none] ++ Layout.ofText otherFields ++
  (if shape.tls.any (·.tlsLib) then (Parameter.mk "tls.tlslib" .carried).layout else []) ++
  Layout.ofText actionHead ++ shape.parameters.flatMap Parameter.layout ++
  Layout.ofText actionEnd

/-- The layout of a configuration. -/
def Shape.layout (shape : Shape) : Layout :=
  Layout.ofText preamble ++ [none] ++ Layout.ofText separator ++ [none] ++
  Layout.ofText separator ++ [none] ++ Layout.ofText otherFields ++
  (if shape.tls.any (·.tlsLib) then (Parameter.mk "tls.tlslib" .carried).layout else []) ++
  Layout.ofText actionHead ++ shape.parameters.flatMap Parameter.layout ++
  Layout.ofText actionEnd ++ shape.rules.flatMap blockLayout

/-- A closed text of the configuration is read between two tokens, and no filter begins in it. -/
def isClosed (text : String) : Bool :=
  (Lexer.run .between text.toList).any fun (last, tokens) =>
    last = .between ∧ Token.word "if" ∉ tokens

/-- The texts that are the same in every configuration. -/
def fixedTexts : List String :=
  [preamble, separator, otherFields, actionHead, actionEnd, blockBody]

theorem isClosed_of_mem {text : String} (hmem : text ∈ fixedTexts) : isClosed text = true := by
  have hpreamble : isClosed preamble = true := by
    simp only [isClosed, preamble, Template.unlines, String.toList_append, String.toList_join]
    decide +kernel
  have hseparator : isClosed separator = true := by
    simp only [isClosed, separator, Template.unlines, String.toList_append, String.toList_join]
    decide +kernel
  have hfields : isClosed otherFields = true := by
    simp only [isClosed, otherFields, Template.unlines, String.toList_append, String.toList_join]
    decide +kernel
  have hhead : isClosed actionHead = true := by
    simp only [isClosed, actionHead, Template.unlines, String.toList_append, String.toList_join]
    decide +kernel
  have hend : isClosed actionEnd = true := by
    simp only [isClosed, actionEnd, Template.unlines, String.toList_join]
    decide +kernel
  have hbody : isClosed blockBody = true := by
    simp only [isClosed, blockBody, Template.unlines, String.toList_append, String.toList_join]
    decide +kernel
  have hall : fixedTexts.all isClosed = true := by
    simp only [fixedTexts, List.all_cons, List.all_nil, hpreamble, hseparator, hfields, hhead, hend,
      hbody, Bool.and_true]
  exact List.all_eq_true.mp hall text hmem

theorem exists_tokens_of_mem {text : String} (hmem : text ∈ fixedTexts) :
    ∃ tokens, Lexer.Reads .between text .between tokens ∧ lex text = some tokens ∧
      .word "if" ∉ tokens := by
  obtain ⟨⟨last, tokens⟩, hrun, hlast⟩ := (Option.any_eq_true _ _).mp (isClosed_of_mem hmem)
  obtain ⟨rfl, hnone⟩ : last = .between ∧ .word "if" ∉ tokens := by simpa using hlast
  exact ⟨tokens, hrun, Lexer.lex_of_reads hrun, hnone⟩

theorem writes_fixedText (text : String) (hmem : text ∈ fixedTexts) :
    Writes text (Layout.ofText text) [] := by
  obtain ⟨tokens, hreads, hlex, -⟩ := exists_tokens_of_mem hmem
  exact Writes.ofText (by rw [hlex]; exact hreads)

theorem if_notMem_fixedText (text : String) (hmem : text ∈ fixedTexts) :
    some (.word "if") ∉ Layout.ofText text := by
  obtain ⟨tokens, -, hlex, hnone⟩ := exists_tokens_of_mem hmem
  simpa [Layout.ofText, hlex] using hnone

/-- The names that the parameters of the action can have, in their order. -/
def parameterNames : List String :=
  ["target", "port", "Template", "rebindInterval", "timeout", "action.resumeRetryCount",
    "action.reportSuspensionContinuation", "queue.type", "queue.size", "queue.filename",
    "queue.spoolDirectory", "queue.maxDiskSpace", "queue.saveOnShutdown", "tls", "tls.caCert",
    "tls.myCert", "tls.myPrivKey", "tls.authMode", "tls.permittedPeer"]

theorem sublist_option {α : Type} (name : String) (value : α → Value) (item : Option α) :
    List.Sublist ((item.toList.map fun found => Parameter.mk name (value found)).map (·.name))
      [name] := by
  cases item with
  | none => exact List.nil_sublist _
  | some item => exact List.Sublist.refl _

theorem names_sublist_tls (shape : TlsShape) :
    List.Sublist (shape.parameters.map (·.name))
      ["tls", "tls.caCert", "tls.myCert", "tls.myPrivKey", "tls.authMode",
        "tls.permittedPeer"] := by
  have hmode : List.Sublist ((if shape.authMode then
      [Parameter.mk "tls.authMode" .carried] else []).map (·.name)) ["tls.authMode"] := by
    split <;> simp
  have hpeers : List.Sublist ((if shape.permittedPeers = 0 then []
      else [Parameter.mk "tls.permittedPeer" (.carriedList shape.permittedPeers)]).map (·.name))
      ["tls.permittedPeer"] := by
    split <;> simp
  simpa [TlsShape.parameters] using hmode.append hpeers

theorem names_sublist (shape : Shape) :
    List.Sublist (shape.parameters.map (·.name)) parameterNames := by
  have htls : List.Sublist ((shape.tls.toList.flatMap TlsShape.parameters).map (·.name))
      ["tls", "tls.caCert", "tls.myCert", "tls.myPrivKey", "tls.authMode",
        "tls.permittedPeer"] := by
    cases shape.tls with
    | none => exact List.nil_sublist _
    | some tls => simpa using names_sublist_tls tls
  have hnumbers (name : String) (value : Option Int32) :=
    sublist_option name (fun value => .known (toString value.toInt)) value
  have hreport := sublist_option "action.reportSuspensionContinuation"
    (fun report => .known (if report then "on" else "off")) shape.reportSuspensionContinuation
  have hhead := List.Sublist.refl ["target", "port", "Template"]
  have hqueue := List.Sublist.refl ["queue.type", "queue.size", "queue.filename",
    "queue.spoolDirectory", "queue.maxDiskSpace", "queue.saveOnShutdown"]
  have hall := (((((hhead.append (hnumbers "rebindInterval" shape.rebindInterval)).append
    (hnumbers "timeout" shape.timeout)).append
      (hnumbers "action.resumeRetryCount" shape.resumeRetryCount)).append hreport).append
        hqueue).append htls
  simp only [Shape.parameters, List.map_append]
  exact hall

/-- No parameter is assigned twice. -/
theorem nodup_names (shape : Shape) : (shape.parameters.map (·.name)).Nodup := by
  have hnodup : parameterNames.Nodup := by decide
  exact hnodup.sublist (names_sublist shape)

theorem word_notMem_value (word : String) (value : Value) : some (.word word) ∉ value.layout := by
  cases value with
  | known text => simp [Value.layout]
  | carried => simp [Value.layout]
  | carriedList count => exact Layout.word_notMem_bracketed word count

theorem if_notMem_parameters (shape : Shape) :
    some (.word "if") ∉ shape.parameters.flatMap Parameter.layout := by
  intro hmem
  obtain ⟨parameter, hparameter, hin⟩ := List.mem_flatMap.mp hmem
  have hname : "if" ≠ parameter.name := by
    intro heq
    have hall := (names_sublist shape).subset (List.mem_map_of_mem hparameter)
    rw [← heq] at hall
    exact absurd hall (by decide)
  simp [Parameter.layout, hname, word_notMem_value] at hin

theorem int_ne_if (n : Int) : toString n ≠ "if" := by
  intro heq
  have hmem : 'i' ∈ (toString n).toList := by
    rw [heq]
    decide
  exact absurd (Lexer.isDigit_or_eq_of_mem_int hmem) (by decide)

theorem if_notMem_clauseLayouts {shape : RuleShape} {layout : Layout}
    (hmem : layout ∈ clauseLayouts shape) : some (.word "if") ∉ layout := by
  have hprograms : some (Token.word "if") ∉ Layout.ofText "$programname == " := by decide +kernel
  have hseverity : some (Token.word "if") ∉ Layout.ofText "$syslogseverity <= " := by
    decide +kernel
  have hfound : some (Token.word "if") ∉ matchLayout true := by decide +kernel
  have hmissed : some (Token.word "if") ∉ matchLayout false := by decide +kernel
  simp only [clauseLayouts, List.mem_append] at hmem
  rcases hmem with ((hnames | hlevel) | hregex) | hexclude
  · split at hnames
    · cases hnames
    · rcases List.mem_singleton.mp hnames with rfl
      simp [hprograms, Layout.word_notMem_bracketed]
  · obtain ⟨n, -, rfl⟩ := List.mem_map.mp hlevel
    simp only [List.mem_append, hseverity, List.mem_singleton, Option.some.injEq, Token.word.injEq]
    exact fun hin => hin.elim id fun heq => int_ne_if n.toInt heq.symm
  · split at hregex
    · rcases List.mem_singleton.mp hregex with rfl
      exact hfound
    · cases hregex
  · split at hexclude
    · rcases List.mem_singleton.mp hexclude with rfl
      exact hmissed
    · cases hexclude

/-- A block begins with its only word of that kind. -/
theorem count_blockLayout (shape : RuleShape) :
    (blockLayout shape).count (some (.word "if")) = 1 := by
  have hclauses : some (Token.word "if") ∉
      [some (Token.word "and")].intercalate (clauseLayouts shape) :=
    Layout.notMem_intercalate (by decide) fun _ => if_notMem_clauseLayouts
  have hbody := if_notMem_fixedText blockBody (by simp [fixedTexts])
  simp [blockLayout, List.count_eq_zero.mpr hclauses, List.count_eq_zero.mpr hbody]

/-- No block begins in front of the blocks. -/
theorem if_notMem_declarations (shape : Shape) :
    some (.word "if") ∉ shape.declarations := by
  have hlibrary : some (Token.word "if") ∉ (if shape.tls.any (·.tlsLib) then
      (Parameter.mk "tls.tlslib" .carried).layout else []) := by
    split <;> decide
  have hfixed : ∀ text ∈ fixedTexts, some (.word "if") ∉ Layout.ofText text :=
    if_notMem_fixedText
  simp only [fixedTexts, List.forall_mem_cons] at hfixed
  obtain ⟨hpreamble, hseparator, hfields, hhead, hend, -⟩ := hfixed
  simp only [Shape.declarations, List.mem_append, hlibrary, hpreamble, hseparator, hfields, hhead,
    hend, if_notMem_parameters shape]
  simp

/-- There are as many blocks as there are filters. -/
theorem count_layout (shape : Shape) :
    shape.layout.count (some (.word "if")) = shape.rules.length := by
  have hblocks : (shape.rules.flatMap blockLayout).count (some (.word "if")) =
      shape.rules.length := by
    rw [List.count_flatMap]
    simp [Function.comp_def, count_blockLayout, List.map_const']
  have hnone := List.count_eq_zero.mpr (if_notMem_declarations shape)
  change (shape.declarations ++ shape.rules.flatMap blockLayout).count _ = _
  rw [List.count_append, hnone, hblocks, Nat.zero_add]

end LogForwarding.Forwarder
