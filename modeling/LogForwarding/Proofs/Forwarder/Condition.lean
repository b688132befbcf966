import LogForwarding.Proofs.Forwarder.Confinement

/-!
What the expression of a filter says.  A condition is read as clauses with "and" between them.  The
reader goes by tokens, so nothing that stands in a literal can end a clause or begin one, and the
expression of a filter is read back as the constraints that the filter has.
-/

namespace LogForwarding.Forwarder

/-- One clause of a condition. -/
inductive Clause where
  /-- The program is one of these. -/
  | programs (names : List String)
  /-- The message is at least as severe. -/
  | severity (limit : Int32)
  /-- The pattern is found in the text. -/
  | found (pattern : String)
  /-- The pattern is not found in the text. -/
  | missed (pattern : String)
deriving DecidableEq

/-- The names behind the first, up to the bracket that ends the list. -/
def readMoreNames : List Token → Option (List String)
  | [.symbol ']'] => some []
  | .symbol ',' :: .literal name :: rest => (readMoreNames rest).map (name :: ·)
  | _ => none

/-- The names of a list behind the bracket that begins it. -/
def readNames : List Token → Option (List String)
  | [.symbol ']'] => some []
  | .literal name :: rest => (readMoreNames rest).map (name :: ·)
  | _ => none

/-- The number of some digits with the sign in front of them. -/
def numeralValue : List Char → Int
  | '-' :: digits => -(Nat.ofDigitChars 10 digits 0 : Nat)
  | digits => (Nat.ofDigitChars 10 digits 0 : Nat)

/-- A number is read in the one form in which it is written. -/
def readLimit (word : String) : Option Int32 :=
  (some (Int32.ofInt (numeralValue word.toList))).filter fun limit => toString limit.toInt = word

/-- A clause.  The lexer takes its operators apart, one into two symbols and the other into a word
and a symbol. -/
def readClause : List Token → Option Clause
  | .word "$programname" :: .symbol '=' :: .symbol '=' :: .symbol '[' :: rest =>
      (readNames rest).map .programs
  | [.word "$syslogseverity", .word "<", .symbol '=', .word word] =>
      (readLimit word).map .severity
  | [.word "re_match", .symbol '(', .word "$msg", .symbol ',', .literal pattern, .symbol ')',
      .symbol '=', .symbol '=', .word outcome] =>
      if outcome = "1" then some (.found pattern)
      else if outcome = "0" then some (.missed pattern)
      else none
  | _ => none

/-- A condition has at least one clause. -/
def readCondition (tokens : List Token) : Option (List Clause) :=
  (tokens.splitOn (.word "and")).mapM readClause

/-- The constraints of a filter. -/
structure Filter where
  programNames : List String
  severity : Option Int32
  regex : Option String
  exclude : Option String
deriving DecidableEq

namespace Filter

def empty : Filter := ⟨[], none, none, none⟩

/-- No constraint is set twice. -/
def add (filter : Filter) : Clause → Option Filter
  | .programs names =>
      if filter.programNames = [] then some { filter with programNames := names } else none
  | .severity limit =>
      if filter.severity = none then some { filter with severity := some limit } else none
  | .found pattern =>
      if filter.regex = none then some { filter with regex := some pattern } else none
  | .missed pattern =>
      if filter.exclude = none then some { filter with exclude := some pattern } else none

/-- The constraints that an expression sets. -/
def read (text : String) : Option Filter :=
  ((lex text).bind readCondition).bind (·.foldlM add empty)

/-- The constraints that a rule sets. -/
def ofRule (rule : LoggingRule) : Filter :=
  ⟨rule.programNames, rule.severity, rule.messageContent.bind (·.regex),
    rule.messageContent.bind (·.exclude)⟩

end Filter

example : Filter.read "re_match($msg, \" and \") == 0 and $programname == [\"a\",\"b\"]" =
    some ⟨["a", "b"], none, none, some " and "⟩ := by decide +kernel

example : Filter.read "$programname == [\"a\"] and $programname == [\"b\"]" = none := by
  decide +kernel

namespace Clause

/-- A clause as it is written. -/
def text : Clause → String
  | .programs names => "$programname == " ++ literalList names
  | .severity limit => "$syslogseverity <= " ++ toString limit.toInt
  | .found pattern => "re_match($msg, " ++ literal pattern ++ ") == 1"
  | .missed pattern => "re_match($msg, " ++ literal pattern ++ ") == 0"

@[simp] theorem text_programs (names : List String) :
    (programs names).text = "$programname == " ++ literalList names := rfl

@[simp] theorem text_severity (limit : Int32) :
    (severity limit).text = "$syslogseverity <= " ++ toString limit.toInt := rfl

@[simp] theorem text_found (pattern : String) :
    (found pattern).text = "re_match($msg, " ++ literal pattern ++ ") == 1" := rfl

@[simp] theorem text_missed (pattern : String) :
    (missed pattern).text = "re_match($msg, " ++ literal pattern ++ ") == 0" := rfl

/-- The tokens of a call that looks for a pattern, and of its outcome. -/
def matchTokens (pattern outcome : String) : List Token :=
  [.word "re_match", .symbol '(', .word "$msg", .symbol ',', .literal pattern, .symbol ')',
    .symbol '=', .symbol '=', .word outcome]

/-- The tokens of a list of literals. -/
def listTokens (values : List String) : List Token :=
  [.symbol '['] ++ [.symbol ','].intercalate (values.map fun value => [.literal value]) ++
    [.symbol ']']

def tokens : Clause → List Token
  | .programs names =>
      [.word "$programname", .symbol '=', .symbol '='] ++ listTokens names
  | .severity limit =>
      [.word "$syslogseverity", .word "<", .symbol '=', .word (toString limit.toInt)]
  | .found pattern => matchTokens pattern "1"
  | .missed pattern => matchTokens pattern "0"

end Clause

/-- The clauses of a rule. -/
def ruleClauses (rule : LoggingRule) : List Clause :=
  (if rule.programNames = [] then [] else [.programs rule.programNames]) ++
  (rule.severity.toList.map .severity) ++
  ((rule.messageContent.bind (·.regex)).toList.map .found) ++
  ((rule.messageContent.bind (·.exclude)).toList.map .missed)

theorem clauses_eq (rule : LoggingRule) : clauses rule = (ruleClauses rule).map Clause.text := by
  by_cases hnames : rule.programNames = [] <;> cases hcontent : rule.messageContent <;>
    simp [clauses, ruleClauses, hnames, hcontent, Function.comp_def]

theorem ruleClauses_eq_nil_iff (rule : LoggingRule) :
    ruleClauses rule = [] ↔ rule.isEmpty = true := by
  cases hcontent : rule.messageContent <;>
    simp [ruleClauses, LoggingRule.isEmpty, hcontent]

/-- A list of lists with a separator in front of every one but the first. -/
theorem intercalate_cons_flatMap {α : Type} (separator first : List α) (lists : List (List α)) :
    separator.intercalate (first :: lists) = first ++ lists.flatMap (separator ++ ·) := by
  induction lists generalizing first with
  | nil => simp
  | cons next lists ih =>
      rw [List.intercalate_cons_cons, ih next, List.flatMap_cons]
      simp only [List.append_assoc]

namespace Clause

theorem reads_literalList (values : List String) :
    Lexer.Reads .between (literalList values) .between (listTokens values) := by
  have hopen : Lexer.Reads .between "[" .between [.symbol '['] := by decide
  have hcomma : Lexer.Reads .between "," .between [.symbol ','] := by decide
  have hclose : Lexer.Reads .between "]" .between [.symbol ']'] := by decide
  have hitems := Lexer.reads_intercalate hcomma fun value (_ : value ∈ values) =>
    Lexer.reads_literal value
  exact (hopen.append hitems).append hclose

theorem reads_match (pattern : String) {close outcome : String}
    (hclose : Lexer.Reads .between (close ++ " ") .between
      [.symbol ')', .symbol '=', .symbol '=', .word outcome]) :
    Lexer.Reads .between ("re_match($msg, " ++ literal pattern ++ close ++ " ") .between
      (matchTokens pattern outcome) := by
  have hopen : Lexer.Reads .between "re_match($msg, " .between
      [.word "re_match", .symbol '(', .word "$msg", .symbol ','] := by decide +kernel
  rw [String.append_assoc]
  exact (hopen.append (Lexer.reads_literal pattern)).append hclose

/-- Every clause is read with the blank behind it. -/
theorem reads_text (clause : Clause) :
    Lexer.Reads .between (clause.text ++ " ") .between clause.tokens := by
  cases clause with
  | programs names =>
      have hstart : Lexer.Reads .between "$programname == " .between
          [.word "$programname", .symbol '=', .symbol '='] := by decide +kernel
      have hblank : Lexer.Reads .between " " .between [] := by decide
      have hall := (hstart.append (reads_literalList names)).append hblank
      rw [List.append_nil] at hall
      exact hall
  | severity limit =>
      have hstart : Lexer.Reads .between "$syslogseverity <= " .between
          [.word "$syslogseverity", .word "<", .symbol '='] := by decide +kernel
      rw [text_severity, String.append_assoc]
      exact hstart.append (Lexer.reads_numeral limit.toInt)
  | found pattern => exact reads_match pattern (by decide +kernel)
  | missed pattern => exact reads_match pattern (by decide +kernel)

theorem readMoreNames_tokens (names : List String) :
    readMoreNames (names.flatMap (fun name => [.symbol ',', .literal name]) ++ [.symbol ']']) =
      some names := by
  induction names with
  | nil => rfl
  | cons name names ih =>
      rw [List.flatMap_cons]
      simp only [List.cons_append, List.nil_append, readMoreNames, ih, Option.map_some]

theorem readNames_tokens (names : List String) :
    readNames ([.symbol ','].intercalate (names.map fun name => [.literal name]) ++
      [.symbol ']']) = some names := by
  cases names with
  | nil => rfl
  | cons name names =>
      rw [List.map_cons, intercalate_cons_flatMap, List.flatMap_map]
      simp only [List.cons_append, List.nil_append, readNames, readMoreNames_tokens,
        Option.map_some]

/-- A number is read back from its numeral. -/
theorem numeralValue_toString (n : Int) : numeralValue (toString n).toList = n := by
  rw [Int.toString_eq_repr, Int.repr_eq_if]
  split
  · rw [Nat.toList_repr, numeralValue, Nat.ofDigitChars_ten_toDigits]
    · omega
    · intro digits hdigits
      have hmem : '-' ∈ Nat.toDigits 10 n.toNat := by
        rw [hdigits]
        exact List.mem_cons_self
      exact absurd (Nat.isDigit_of_mem_toDigits (by decide) (by decide) hmem) (by decide)
  · have hsign : "-".toList = ['-'] := by decide
    rw [String.toList_append, Nat.toList_repr, hsign, List.singleton_append, numeralValue,
      Nat.ofDigitChars_ten_toDigits]
    omega

theorem readLimit_toString (limit : Int32) : readLimit (toString limit.toInt) = some limit := by
  rw [readLimit, numeralValue_toString, Int32.ofInt_toInt]
  simp

/-- Every clause is read back from its tokens. -/
theorem readClause_tokens (clause : Clause) : readClause clause.tokens = some clause := by
  cases clause with
  | programs names =>
      exact congrArg (Option.map programs) (readNames_tokens names)
  | severity limit =>
      exact congrArg (Option.map severity) (readLimit_toString limit)
  | found pattern => rfl
  | missed pattern => rfl

end Clause

/-- The words that the parts of a block stand between. -/
def keywords : List String := ["if", "then", "and"]

/-- There is a letter in every keyword. -/
theorem int_notMem_keywords (n : Int) : toString n ∉ keywords := by
  have hletter : ∀ word ∈ keywords,
      word.toList.all (fun c => c.isDigit || c == '-') = false := by decide
  have hnumeral : (toString n).toList.all (fun c => c.isDigit || c == '-') = true := by
    apply List.all_eq_true.mpr
    intro c hmem
    simpa using Lexer.isDigit_or_eq_of_mem_int hmem
  intro hmem
  rw [hletter _ hmem] at hnumeral
  cases hnumeral

namespace Clause

theorem notMem_listTokens (word : String) (values : List String) :
    .word word ∉ listTokens values := by
  have hcomma : Token.word word ∉ [.symbol ','] := by simp
  have hvalues : ∀ list ∈ values.map fun value => [Token.literal value], .word word ∉ list := by
    simp
  have hitems := Layout.notMem_intercalate hcomma hvalues
  simpa [listTokens] using hitems

/-- What stands in a literal is no keyword. -/
theorem notMem_tokens {word : String} (hword : word ∈ keywords) (clause : Clause) :
    .word word ∉ clause.tokens := by
  have hne : ∀ other, other ∉ keywords → word ≠ other := fun _ => ne_of_mem_of_not_mem hword
  have hmatch : ∀ pattern outcome, outcome ∉ keywords →
      .word word ∉ matchTokens pattern outcome := by
    intro pattern outcome houtcome
    have hcall := hne "re_match" (by decide)
    have htext := hne "$msg" (by decide)
    simp [matchTokens, hcall, htext, hne outcome houtcome]
  cases clause with
  | programs names =>
      have hname := hne "$programname" (by decide)
      simp [tokens, hname, notMem_listTokens]
  | severity limit =>
      have hname := hne "$syslogseverity" (by decide)
      have hless := hne "<" (by decide)
      have hlimit := hne _ (int_notMem_keywords limit.toInt)
      rw [Int.toString_eq_repr] at hlimit
      simp [tokens, hname, hless, hlimit]
  | found pattern => exact hmatch pattern "1" (by decide)
  | missed pattern => exact hmatch pattern "0" (by decide)

end Clause

/-- The tokens of several clauses that must all hold. -/
def conditionTokens (clauses : List Clause) : List Token :=
  [.word "and"].intercalate (clauses.map Clause.tokens)

theorem notMem_conditionTokens {word : String} (hword : word ∈ keywords) (hother : word ≠ "and")
    (clauses : List Clause) : .word word ∉ conditionTokens clauses := by
  apply Layout.notMem_intercalate
  · simpa using hother
  · intro list hmem
    obtain ⟨clause, -, rfl⟩ := List.mem_map.mp hmem
    exact clause.notMem_tokens hword

theorem reads_condition {clauses : List Clause} (hne : clauses ≠ []) :
    Lexer.Reads .between (" and ".intercalate (clauses.map Clause.text) ++ " ") .between
      (conditionTokens clauses) := by
  have hand : " and " = " " ++ "and " := by decide
  have htexts : clauses.map Clause.text ≠ [] := by simpa using hne
  rw [hand, intercalate_blank "and " htexts, List.map_map]
  exact Lexer.reads_intercalate (by decide) fun clause _ => clause.reads_text

/-- A condition is read back from its tokens. -/
theorem readCondition_tokens {clauses : List Clause} (hne : clauses ≠ []) :
    readCondition (conditionTokens clauses) = some clauses := by
  have hnone : ∀ list ∈ clauses.map Clause.tokens, .word "and" ∉ list := by
    intro list hmem
    obtain ⟨clause, -, rfl⟩ := List.mem_map.mp hmem
    exact clause.notMem_tokens (by decide)
  have hlists : clauses.map Clause.tokens ≠ [] := by simpa using hne
  have hread := mapM_map_eq_some fun clause (_ : clause ∈ clauses) => clause.readClause_tokens
  rw [List.map_id'] at hread
  rw [readCondition, conditionTokens, List.splitOn_intercalate _ hnone hlists, hread]

/-- The clauses of a rule set its constraints. -/
theorem Filter.foldlM_add_ruleClauses (rule : LoggingRule) :
    (ruleClauses rule).foldlM Filter.add .empty = some (.ofRule rule) := by
  obtain ⟨names, severity, content⟩ := rule
  by_cases hnames : names = [] <;> cases severity <;>
    cases hregex : content.bind (·.regex) <;> cases hexclude : content.bind (·.exclude) <;>
    simp [ruleClauses, Filter.add, Filter.empty, Filter.ofRule, hnames, hregex, hexclude]

theorem ruleClauses_ne_nil {rule : LoggingRule} (hset : rule.isEmpty = false) :
    ruleClauses rule ≠ [] := by
  intro hnil
  rw [(ruleClauses_eq_nil_iff rule).mp hnil] at hset
  cases hset

theorem reads_filterExpression {rule : LoggingRule} (hset : rule.isEmpty = false) :
    Lexer.Reads .between (filterExpression rule ++ " ") .between
      (conditionTokens (ruleClauses rule)) := by
  rw [filterExpression, clauses_eq]
  exact reads_condition (ruleClauses_ne_nil hset)

/-- The expression of a rule is read back as its constraints. -/
theorem Filter.read_filterExpression {rule : LoggingRule} (hset : rule.isEmpty = false) :
    Filter.read (filterExpression rule) = some (.ofRule rule) := by
  rw [Filter.read, Lexer.lex_of_reads_blank (reads_filterExpression hset), Option.bind_some,
    readCondition_tokens (ruleClauses_ne_nil hset), Option.bind_some, foldlM_add_ruleClauses]

/-- Only a rule without constraints has an expression without text. -/
theorem filterExpression_eq_empty_iff (rule : LoggingRule) :
    filterExpression rule = "" ↔ rule.isEmpty = true := by
  constructor
  · intro hempty
    cases hset : rule.isEmpty with
    | true => rfl
    | false =>
        have hread := Filter.read_filterExpression hset
        have hnone : Filter.read "" = none := by decide
        rw [hempty, hnone] at hread
        cases hread
  · intro hempty
    rw [filterExpression, clauses_eq, (ruleClauses_eq_nil_iff rule).mpr hempty]
    rfl

end LogForwarding.Forwarder
