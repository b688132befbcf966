import LogForwarding.Proofs.Forwarder.Condition
import LogForwarding.Proofs.Validation
import Mathlib.Tactic.MkIffOfInductiveProp

/-!
What a configuration does with a message.  Behind the declarations, each of which closes what it
opens, there are only blocks.  A message runs through them in their order, and the first whose
condition holds hands it on and stops it, so it is handed on once if any filter matches.
-/

namespace LogForwarding

/-- A message, as far as filters look at it. -/
structure Message where
  program : String
  severity : Int
  text : String

/-- The message meets every constraint that the rule sets, where `finds` tells whether a pattern is
found in a text. -/
@[mk_iff]
structure LoggingRule.Matches (rule : LoggingRule) (finds : String → String → Bool)
    (message : Message) : Prop where
  program : rule.programNames = [] ∨ message.program ∈ rule.programNames
  severity : ∀ limit, rule.severity = some limit → message.severity ≤ limit.toInt
  regex : ∀ pattern, rule.messageContent.bind (·.regex) = some pattern →
    finds pattern message.text = true
  exclude : ∀ pattern, rule.messageContent.bind (·.exclude) = some pattern →
    finds pattern message.text = false

namespace Forwarder

/-- What a block does with a message. -/
inductive Action where
  /-- Hands it to a ruleset. -/
  | call (ruleset : String)
  /-- Ends the run. -/
  | stop
deriving DecidableEq

structure Block where
  condition : List Clause
  actions : List Action
deriving DecidableEq

/-- The actions up to the brace that closes the block. -/
def readActions : List Token → Option (List Action)
  | [.symbol '\x7d'] => some []
  | .word verb :: rest =>
      if verb = "stop" then (readActions rest).map (.stop :: ·)
      else if verb = "call" then
        match rest with
        | .word ruleset :: rest => (readActions rest).map (.call ruleset :: ·)
        | _ => none
      else none
  | _ => none

/-- A block behind its first word. -/
def readBlock (tokens : List Token) : Option Block :=
  match tokens.splitOn (.word "then") with
  | [condition, .symbol '\x7b' :: body] =>
      (readCondition condition).bind fun clauses => (readActions body).map (⟨clauses, ·⟩)
  | _ => none

/-- Whether the token opens something or closes it. -/
def Token.brace? : Token → Option Bool
  | .symbol '\x7b' => some true
  | .symbol '\x7d' => some false
  | _ => none

/-- Everything is closed that was opened, when so much was open before. -/
def closesAll : Nat → List Bool → Bool
  | 0, [] => true
  | _ + 1, [] => false
  | depth, true :: rest => closesAll (depth + 1) rest
  | 0, false :: _ => false
  | depth + 1, false :: rest => closesAll depth rest

/-- The blocks of a configuration.  The declarations end in front of the first of them, outside of
all braces. -/
def readScript (text : String) : Option (List Block) :=
  (lex text).bind fun tokens =>
    match tokens.splitOn (.word "if") with
    | [] => none
    | declarations :: blocks =>
        if closesAll 0 (declarations.filterMap Token.brace?) then blocks.mapM readBlock else none

/-- A block must not stand in the body of a declaration. -/
example : readScript
    "ruleset(name=\"a\") \x7b if $programname == [\"b\"] then \x7b stop \x7d \x7d" = none := by
  decide +kernel

section Run

variable (finds : String → String → Bool) (message : Message)

/-- A program is compared with each of the names. -/
def Clause.holds : Clause → Bool
  | .programs names => message.program ∈ names
  | .severity limit => message.severity ≤ limit.toInt
  | .found pattern => finds pattern message.text
  | .missed pattern => !finds pattern message.text

/-- The rulesets that are called by some actions and, unless they end the run, by what follows. -/
def callsThen : List Action → List String → List String
  | [], later => later
  | .call ruleset :: rest, later => ruleset :: callsThen rest later
  | .stop :: _, _ => []

/-- The rulesets that are called while a message runs through some blocks. -/
def calls : List Block → List String
  | [] => []
  | block :: rest =>
      if block.condition.all (·.holds finds message) then callsThen block.actions (calls rest)
      else calls rest

end Run

/-- The block of a rule. -/
def ruleBlock (rule : LoggingRule) : Block :=
  ⟨ruleClauses rule, [.call "relp_action_ruleset", .stop]⟩

section Run

variable {finds : String → String → Bool} {message : Message}

/-- The clauses of a rule hold for the messages that it matches. -/
theorem all_holds_ruleClauses_iff (rule : LoggingRule) :
    (ruleClauses rule).all (·.holds finds message) = true ↔ rule.Matches finds message := by
  rw [LoggingRule.matches_iff]
  by_cases hnames : rule.programNames = [] <;> simp [ruleClauses, Clause.holds, hnames]

instance (rule : LoggingRule) : Decidable (rule.Matches finds message) :=
  decidable_of_iff _ (all_holds_ruleClauses_iff rule)

variable {rule : LoggingRule} {rules : List LoggingRule}

/-- A block that applies ends the run. -/
theorem calls_of_matches (hmatches : rule.Matches finds message) (rest : List Block) :
    calls finds message (ruleBlock rule :: rest) = ["relp_action_ruleset"] := by
  rw [calls]
  exact if_pos ((all_holds_ruleClauses_iff rule).mpr hmatches)

theorem calls_of_not_matches (hother : ¬rule.Matches finds message) (rest : List Block) :
    calls finds message (ruleBlock rule :: rest) = calls finds message rest := by
  rw [calls]
  exact if_neg fun hholds => hother ((all_holds_ruleClauses_iff rule).mp hholds)

/-- A message is handed on once if a rule matches it, whatever the others say. -/
theorem calls_of_exists (hexists : ∃ rule ∈ rules, rule.Matches finds message) :
    calls finds message (rules.map ruleBlock) = ["relp_action_ruleset"] := by
  induction rules with
  | nil => simp at hexists
  | cons first rules ih =>
      rw [List.map_cons]
      by_cases hfirst : first.Matches finds message
      · exact calls_of_matches hfirst _
      · rw [calls_of_not_matches hfirst]
        apply ih
        obtain ⟨rule, hmem, hmatches⟩ := hexists
        rcases List.mem_cons.mp hmem with rfl | hlater
        · exact absurd hmatches hfirst
        · exact ⟨rule, hlater, hmatches⟩

theorem calls_of_forall_not (hnone : ∀ rule ∈ rules, ¬rule.Matches finds message) :
    calls finds message (rules.map ruleBlock) = [] := by
  induction rules with
  | nil => rfl
  | cons first rules ih =>
      rw [List.map_cons, calls_of_not_matches (hnone first List.mem_cons_self)]
      apply ih
      intro rule hmem
      exact hnone rule (List.mem_cons_of_mem first hmem)

end Run

/-- What stands in a block behind its condition. -/
def actionTokens : List Token :=
  [.symbol '\x7b', .word "call", .word "relp_action_ruleset", .word "stop", .symbol '\x7d']

/-- What stands in a block behind its first word. -/
def blockTokens (rule : LoggingRule) : List Token :=
  conditionTokens (ruleClauses rule) ++ .word "then" :: actionTokens

theorem reads_blockBody :
    Lexer.Reads .between blockBody .between (.word "then" :: actionTokens) := by
  simp only [Lexer.Reads, blockBody, Template.unlines, String.toList_append, String.toList_join]
  decide +kernel

theorem reads_block {rule : LoggingRule} (hset : rule.isEmpty = false) :
    Lexer.Reads .between ("if " ++ (filterExpression rule ++ " " ++ blockBody)) .between
      (.word "if" :: blockTokens rule) := by
  have hif : Lexer.Reads .between "if " .between [.word "if"] := by decide
  exact hif.append ((reads_filterExpression hset).append reads_blockBody)

theorem readBlock_tokens {rule : LoggingRule} (hset : rule.isEmpty = false) :
    readBlock (blockTokens rule) = some (ruleBlock rule) := by
  have hparts : blockTokens rule =
      [.word "then"].intercalate [conditionTokens (ruleClauses rule), actionTokens] := by
    rw [intercalate_cons_flatMap]
    simp [blockTokens]
  have hnone : ∀ list ∈ [conditionTokens (ruleClauses rule), actionTokens],
      .word "then" ∉ list := by
    have hcondition : .word "then" ∉ conditionTokens (ruleClauses rule) :=
      notMem_conditionTokens (by decide) (by decide) _
    have hactions : Token.word "then" ∉ actionTokens := by decide
    simpa using ⟨hcondition, hactions⟩
  have hactions : readActions actionTokens.tail =
      some [.call "relp_action_ruleset", .stop] := by decide
  have hclauses := readCondition_tokens (ruleClauses_ne_nil hset)
  rw [readBlock, hparts, List.splitOn_intercalate _ hnone (by simp)]
  change (readCondition _).bind _ = _
  rw [hclauses, Option.bind_some]
  exact congrArg (Option.map _) hactions

theorem if_notMem_blockTokens (rule : LoggingRule) : .word "if" ∉ blockTokens rule := by
  have hcondition : .word "if" ∉ conditionTokens (ruleClauses rule) :=
    notMem_conditionTokens (by decide) (by decide) _
  have hactions : Token.word "if" ∉ actionTokens := by decide
  simp [blockTokens, hcondition, hactions]

/-- There are no braces in a parameter. -/
theorem brace_notMem_parameter {c : Char} (hbrace : c ∈ ['\x7b', '\x7d']) (parameter : Parameter) :
    some (.symbol c) ∉ parameter.layout := by
  have hne : ∀ other, other ∉ ['\x7b', '\x7d'] → c ≠ other := fun _ => ne_of_mem_of_not_mem hbrace
  have hequals := hne '=' (by decide)
  obtain ⟨name, value⟩ := parameter
  cases value with
  | known text => simp [Parameter.layout, Value.layout, hequals]
  | carried => simp [Parameter.layout, Value.layout, hequals]
  | carriedList count =>
      have hlist : some (.symbol c) ∉ Layout.bracketed count := by
        apply Layout.notMem_bracketed
        simp [hne '[' (by decide), hne ',' (by decide), hne ']' (by decide)]
      simp [Parameter.layout, Value.layout, hequals, hlist]

/-- The braces of a layout. -/
def braces (layout : Layout) : List Bool := layout.filterMap (·.bind Token.brace?)

theorem braces_append (front rest : Layout) :
    braces (front ++ rest) = braces front ++ braces rest :=
  List.filterMap_append

theorem braces_parameters (parameters : List Parameter) :
    braces (parameters.flatMap Parameter.layout) = [] := by
  rw [braces, List.filterMap_flatMap, List.flatMap_eq_nil_iff]
  intro parameter _
  rw [List.filterMap_eq_nil_iff]
  intro place hplace
  cases hbrace : place.bind Token.brace? with
  | none => rfl
  | some opens =>
      obtain ⟨token, rfl, htoken⟩ := Option.bind_eq_some_iff.mp hbrace
      unfold Token.brace? at htoken
      split at htoken
      · exact absurd hplace (brace_notMem_parameter (by decide) parameter)
      · exact absurd hplace (brace_notMem_parameter (by decide) parameter)
      · cases htoken

theorem braces_ofText {text : String} {found : List Bool}
    (hrun : (Lexer.run .between text.toList).map (fun read =>
      (read.1, read.2.filterMap Token.brace?)) = some (.between, found)) :
    braces (Layout.ofText text) = found := by
  obtain ⟨⟨last, tokens⟩, hread, hfound⟩ := Option.map_eq_some_iff.mp hrun
  obtain ⟨rfl, rfl⟩ := Prod.mk.inj hfound
  rw [braces, Layout.ofText, Lexer.lex_of_reads hread, Option.getD_some, List.filterMap_map]
  rfl

/-- The braces of the declarations are those of the template and of the two rulesets. -/
theorem braces_declarations (shape : Shape) :
    braces shape.declarations = [true, false, true, false, true, false] := by
  have hpreamble : braces (Layout.ofText preamble) = [true] := by
    apply braces_ofText
    simp only [preamble, Template.unlines, String.toList_append, String.toList_join]
    decide +kernel
  have hseparator : braces (Layout.ofText separator) = [] := by
    apply braces_ofText
    simp only [separator, Template.unlines, String.toList_append, String.toList_join]
    decide +kernel
  have hfields : braces (Layout.ofText otherFields) = [false] := by
    apply braces_ofText
    simp only [otherFields, Template.unlines, String.toList_append, String.toList_join]
    decide +kernel
  have hhead : braces (Layout.ofText actionHead) = [true, false, true] := by
    apply braces_ofText
    simp only [actionHead, Template.unlines, String.toList_append, String.toList_join]
    decide +kernel
  have hend : braces (Layout.ofText actionEnd) = [false] := by
    apply braces_ofText
    simp only [actionEnd, Template.unlines, String.toList_join]
    decide +kernel
  have hlibrary : braces (if shape.tls.any (·.tlsLib) then
      (Parameter.mk "tls.tlslib" .carried).layout else []) = [] := by
    split <;> rfl
  simp only [Shape.declarations, braces_append, hpreamble, hseparator, hfields, hlibrary, hhead,
    braces_parameters, hend]
  rfl

/-- The blocks are read back, whatever stands in front of them. -/
theorem readScript_of_lex {text : String} {front : List Token} {rules : List LoggingRule}
    (hset : ∀ rule ∈ rules, rule.isEmpty = false) (hfront : .word "if" ∉ front)
    (hclosed : closesAll 0 (front.filterMap Token.brace?) = true)
    (hlex : lex text = some (front ++ rules.flatMap fun rule => .word "if" :: blockTokens rule)) :
    readScript text = some (rules.map ruleBlock) := by
  have hparts : front ++ (rules.flatMap fun rule => .word "if" :: blockTokens rule) =
      [.word "if"].intercalate (front :: rules.map blockTokens) := by
    rw [intercalate_cons_flatMap, List.flatMap_map]
    rfl
  have hnone : ∀ list ∈ front :: rules.map blockTokens, .word "if" ∉ list := by
    simpa using ⟨hfront, fun rule _ => if_notMem_blockTokens rule⟩
  rw [readScript, hlex, Option.bind_some, hparts, List.splitOn_intercalate _ hnone (by simp)]
  change (if closesAll 0 (front.filterMap Token.brace?) = true then _ else none) = _
  rw [if_pos hclosed]
  exact mapM_map_eq_some fun rule hmem => readBlock_tokens (hset rule hmem)

/-- A document without faults violates nothing. -/
theorem not_violates_of_validate {config : TenantConfig} {ctx : ClusterContext}
    (hvalid : config.validate ctx = []) (path : FieldPath) : ¬config.Violates ctx path := by
  obtain ⟨places, hfields, -, hmem⟩ := reports_validate config ctx
  rw [hvalid, List.map_nil] at hfields
  have hnone : places = [] := List.map_eq_nil_iff.mp hfields.symm
  rw [← hmem path, hnone]
  exact List.not_mem_nil

theorem isEmpty_of_validate {config : TenantConfig} {ctx : ClusterContext}
    (hvalid : config.validate ctx = []) {rule : LoggingRule} (hmem : rule ∈ config.loggingRules) :
    rule.isEmpty = false := by
  obtain ⟨index, hindex⟩ := List.getElem?_of_mem hmem
  cases hempty : rule.isEmpty with
  | false => rfl
  | true =>
      have hviolates : config.Violates ctx (.rule index .whole) := ⟨rule, hindex, hempty⟩
      exact absurd hviolates (not_violates_of_validate hvalid _)

/-- The configuration of a document without faults is a script with the block of each rule. -/
theorem exists_script {config : TenantConfig} {ctx : ClusterContext}
    (hvalid : config.validate ctx = []) (other : ClusterContext) :
    ∃ text, configuration config other = .ok text ∧
      readScript text = some (config.loggingRules.map ruleBlock) := by
  obtain ⟨front, hfront, hfill⟩ := writes_declarations config other
  have hset : ∀ rule ∈ config.loggingRules, rule.isEmpty = false := fun _ =>
    isEmpty_of_validate hvalid
  have hblocks := Lexer.reads_join fun rule hmem => reads_block (hset rule hmem)
  have hlex := Lexer.lex_of_reads (hfront.append hblocks)
  have hif : .word "if" ∉ front := by
    rw [← List.count_eq_zero, Layout.count_of_fill (by simp) hfill, List.count_eq_zero]
    exact if_notMem_declarations (shape config)
  have hclosed : closesAll 0 (front.filterMap Token.brace?) = true := by
    have hbraces : front.filterMap Token.brace? = _ :=
      (Layout.filterMap_of_fill (fun _ => rfl) hfill).trans (braces_declarations (shape config))
    rw [hbraces]
    rfl
  refine ⟨_, configuration_eq fun _ => mem_allowed_of_validate hvalid, ?_⟩
  rw [List.map_map]
  exact readScript_of_lex hset hif hclosed hlex

/-- The expression of a filter says what its rule says, and nothing is said just for a rule without
constraints.  So by the configuration of a document without faults a message is handed on once if a
rule matches it, and not at all otherwise. -/
theorem filters_mean_rules {config : TenantConfig} {ctx : ClusterContext}
    (hvalid : config.validate ctx = []) (other : ClusterContext) :
    (∀ rule : LoggingRule, rule.isEmpty = false →
      Filter.read (filterExpression rule) = some ⟨rule.programNames, rule.severity,
        rule.messageContent.bind (·.regex), rule.messageContent.bind (·.exclude)⟩) ∧
    (∀ rule : LoggingRule, filterExpression rule = "" ↔ rule.isEmpty = true) ∧
    ∃ text blocks, configuration config other = .ok text ∧ readScript text = some blocks ∧
      ∀ finds message,
        ((∃ rule ∈ config.loggingRules, rule.Matches finds message) →
          calls finds message blocks = ["relp_action_ruleset"]) ∧
        ((∀ rule ∈ config.loggingRules, ¬rule.Matches finds message) →
          calls finds message blocks = []) := by
  obtain ⟨text, htext, hread⟩ := exists_script hvalid other
  refine ⟨fun rule => Filter.read_filterExpression, filterExpression_eq_empty_iff, text, _, htext,
    hread, ?_⟩
  intro finds message
  exact ⟨calls_of_exists, calls_of_forall_not⟩

theorem hostile_calls :
    hostile.validate .sample = [] ∧
    Filter.read (filterExpression ⟨["a\"] and b"], none, none⟩) =
      some ⟨["a\"] and b"], none, none, none⟩ ∧
    ∃ text blocks, configuration hostile hostileContext = .ok text ∧
      readScript text = some blocks ∧
      calls (fun pattern _ => pattern = "\" then") ⟨"b\\", 3, ""⟩ blocks =
        ["relp_action_ruleset"] ∧
      calls (fun pattern _ => pattern = "\" then") ⟨"b\\", 4, ""⟩ blocks = [] := by
  have hvalid : hostile.validate .sample = [] := by decide +kernel
  obtain ⟨hread, -, text, blocks, htext, hblocks, hcalls⟩ :=
    filters_mean_rules hvalid hostileContext
  refine ⟨hvalid, hread _ rfl, text, blocks, htext, hblocks, ?_, ?_⟩
  · apply (hcalls _ _).1
    decide +kernel
  · apply (hcalls _ _).2
    decide +kernel

end Forwarder

end LogForwarding
