import LogForwarding.Forwarder.Literal

/-!
The tokens of the forwarder's configuration language.  The lexer reads one character at a time, so a
text can be taken apart at any place: what is read of its second part depends only on where the
lexer is behind the first.  Between quotes only a quote or a backslash is special, and an escaped
text is read back as what it was.
-/

namespace LogForwarding.Forwarder

/-- A token of a configuration. -/
inductive Token where
  | word (text : String)
  | literal (value : String)
  | symbol (c : Char)
deriving DecidableEq

/-- Where the lexer is.  What was read of a word or a literal is kept in reverse. -/
inductive Mode where
  | between
  | word (seen : List Char)
  | literal (seen : List Char)
  /-- Behind a backslash in a literal. -/
  | escape (seen : List Char)
  | comment
deriving DecidableEq

namespace Lexer

def isSymbol (c : Char) : Bool :=
  c ∈ ['(', ')', '\x7b', '\x7d', '[', ']', ',', '=']

/-- The characters that words are made of. -/
def isWordChar (c : Char) : Bool :=
  ¬ (c = '"' ∨ c = '#' ∨ isSymbol c ∨ c.isWhitespace)

/-- The character that an escape stands for. -/
def unescape (c : Char) : Option Char :=
  if c = '\\' then some '\\'
  else if c = '"' then some '"'
  else if c = 'n' then some '\n'
  else if c = 'r' then some '\r'
  else if c = 't' then some '\t'
  else none

/-- A character between tokens. -/
def start (c : Char) : Mode × List Token :=
  if c = '"' then (.literal [], [])
  else if c = '#' then (.comment, [])
  else if isSymbol c then (.between, [.symbol c])
  else if c.isWhitespace then (.between, [])
  else (.word [c], [])

/-- One character, with the token that it completes or is. -/
def step : Mode → Char → Option (Mode × List Token)
  | .between, c => some (start c)
  | .word seen, c =>
      if isWordChar c then some (.word (c :: seen), [])
      else some ((start c).1, .word (String.ofList seen.reverse) :: (start c).2)
  | .literal seen, c =>
      if c = '"' then some (.between, [.literal (String.ofList seen.reverse)])
      else if c = '\\' then some (.escape seen, [])
      else some (.literal (c :: seen), [])
  | .escape seen, c => (unescape c).map fun value => (.literal (value :: seen), [])
  | .comment, c => some (if c = '\n' then .between else .comment, [])

def run : Mode → List Char → Option (Mode × List Token)
  | mode, [] => some (mode, [])
  | mode, c :: rest => do
      let (next, first) ← step mode c
      let (last, others) ← run next rest
      return (last, first ++ others)

/-- What the end of the text completes.  It must not come within a literal. -/
def finish : Mode → Option (List Token)
  | .between | .comment => some []
  | .word seen => some [.word (String.ofList seen.reverse)]
  | .literal _ | .escape _ => none

end Lexer

/-- The tokens of a text. -/
def lex (text : String) : Option (List Token) := do
  let (mode, tokens) ← Lexer.run .between text.toList
  let last ← Lexer.finish mode
  return tokens ++ last

/-- A quoted text is the text between quotes. -/
theorem literal_eq (text : String) : literal text = "\"" ++ literalBody text ++ "\"" := by
  apply String.toList_inj.mp
  simp [literal, literalBody]

namespace Lexer

/-- The text leads from one place to another and yields some tokens on the way. -/
def Reads (mode : Mode) (text : String) (last : Mode) (tokens : List Token) : Prop :=
  run mode text.toList = some (last, tokens)

instance (mode : Mode) (text : String) (last : Mode) (tokens : List Token) :
    Decidable (Reads mode text last tokens) :=
  inferInstanceAs (Decidable (run mode text.toList = some (last, tokens)))

theorem run_cons {mode next last : Mode} {c : Char} {rest : List Char} {first others : List Token}
    (hstep : step mode c = some (next, first)) (hrest : run next rest = some (last, others)) :
    run mode (c :: rest) = some (last, first ++ others) := by
  rw [run, hstep]
  dsimp only [Option.bind_eq_bind, Option.bind_some]
  rw [hrest]
  rfl

theorem run_singleton (mode : Mode) (c : Char) : run mode [c] = step mode c := by
  cases hstep : step mode c <;> simp [run, hstep]

theorem run_append {mode next last : Mode} {front rest : List Char} {first others : List Token}
    (hfront : run mode front = some (next, first)) (hrest : run next rest = some (last, others)) :
    run mode (front ++ rest) = some (last, first ++ others) := by
  induction front generalizing mode first with
  | nil =>
      cases hfront
      exact hrest
  | cons c front ih =>
      rw [run] at hfront
      obtain ⟨⟨middle, head⟩, hstep, hfront⟩ := Option.bind_eq_some_iff.mp hfront
      obtain ⟨⟨ahead, tail⟩, hrun, hend⟩ := Option.bind_eq_some_iff.mp hfront
      cases hend
      rw [List.append_assoc]
      exact run_cons hstep (ih hrun)

/-- A text is read up to any place in it first. -/
theorem exists_run_of_append {mode last : Mode} {front rest : List Char} {tokens : List Token}
    (hrun : run mode (front ++ rest) = some (last, tokens)) :
    ∃ next first others, run mode front = some (next, first) ∧
      run next rest = some (last, others) ∧ tokens = first ++ others := by
  induction front generalizing mode tokens with
  | nil => exact ⟨mode, [], tokens, rfl, hrun, rfl⟩
  | cons c front ih =>
      rw [List.cons_append, run] at hrun
      obtain ⟨⟨middle, head⟩, hstep, hrun⟩ := Option.bind_eq_some_iff.mp hrun
      obtain ⟨⟨ahead, tail⟩, hahead, hend⟩ := Option.bind_eq_some_iff.mp hrun
      cases hend
      obtain ⟨next, first, others, hfront, hrest, rfl⟩ := ih hahead
      exact ⟨next, head ++ first, others, run_cons hstep hfront, hrest,
        (List.append_assoc head first others).symm⟩

theorem Reads.append {mode next last : Mode} {front rest : String} {first others : List Token}
    (hfront : Reads mode front next first) (hrest : Reads next rest last others) :
    Reads mode (front ++ rest) last (first ++ others) := by
  rw [Reads, String.toList_append]
  exact run_append hfront hrest

/-- A text that ends between two tokens has the tokens that are read on the way. -/
theorem lex_of_reads {text : String} {tokens : List Token}
    (hreads : Reads .between text .between tokens) : lex text = some tokens := by
  rw [lex, hreads]
  simp [finish]

/-- Several texts one behind the other. -/
theorem reads_join {α : Type} {text : α → String} {tokens : α → List Token} {items : List α}
    (hitems : ∀ item ∈ items, Reads .between (text item) .between (tokens item)) :
    Reads .between (String.join (items.map text)) .between (items.flatMap tokens) := by
  induction items with
  | nil => rfl
  | cons item items ih =>
      have hfirst := hitems item List.mem_cons_self
      have hrest := ih fun other hmem => hitems other (List.mem_cons_of_mem item hmem)
      rw [List.map_cons, String.join_cons, List.flatMap_cons]
      exact hfirst.append hrest

/-- Several texts with a separator between them. -/
theorem reads_intercalate {α : Type} {separator : String} {parting : List Token}
    (hparting : Reads .between separator .between parting) {text : α → String}
    {tokens : α → List Token} {items : List α}
    (hitems : ∀ item ∈ items, Reads .between (text item) .between (tokens item)) :
    Reads .between (separator.intercalate (items.map text)) .between
      (parting.intercalate (items.map tokens)) := by
  induction items with
  | nil => rfl
  | cons item items ih =>
      have hfirst := hitems item List.mem_cons_self
      have hrest := ih fun other hmem => hitems other (List.mem_cons_of_mem item hmem)
      cases items with
      | nil => simpa using hfirst
      | cons next items =>
          simp only [List.map_cons, String.intercalate_cons_cons, List.intercalate_cons_cons]
          exact (hfirst.append hparting).append hrest

/-- An escaped character is read back as itself. -/
theorem run_escapedChar (seen : List Char) (c : Char) :
    run (.literal seen) (escapedChar c) = some (.literal (c :: seen), []) := by
  by_cases hbackslash : c = '\\'
  · subst hbackslash
    rfl
  by_cases hquote : c = '"'
  · subst hquote
    rfl
  by_cases hline : c = '\n'
  · subst hline
    rfl
  by_cases hreturn : c = '\r'
  · subst hreturn
    rfl
  by_cases htab : c = '\t'
  · subst htab
    rfl
  simp [escapedChar, run, step, hbackslash, hquote, hline, hreturn, htab]

/-- An escaped text is read back as itself, and nothing of it ends the literal. -/
theorem run_flatMap_escapedChar (seen text : List Char) :
    run (.literal seen) (text.flatMap escapedChar) =
      some (.literal (text.reverse ++ seen), []) := by
  induction text generalizing seen with
  | nil => rfl
  | cons c text ih =>
      rw [List.flatMap_cons, List.reverse_cons, List.append_assoc]
      exact run_append (run_escapedChar seen c) (ih (c :: seen))

/-- Behind an opening quote an escaped text is read up to its end. -/
theorem reads_literalBody (text : String) :
    Reads (.literal []) (literalBody text) (.literal text.toList.reverse) [] := by
  rw [Reads, literalBody, String.toList_ofList, run_flatMap_escapedChar, List.append_nil]

/-- A quote ends the literal with what was read of it. -/
theorem reads_quote (text : String) :
    Reads (.literal text.toList.reverse) "\"" .between [.literal text] := by
  simp [Reads, run, step]

/-- A quoted text is one literal, with the text as its value. -/
theorem reads_literal (text : String) :
    Reads .between (literal text) .between [.literal text] := by
  have hopen : Reads .between "\"" (.literal []) [] := by decide
  rw [literal_eq]
  exact (hopen.append (reads_literalBody text)).append (reads_quote text)

example : lex (literal "a\" if \\") = some [.literal "a\" if \\"] := by decide +kernel

/-- A text that is one word. -/
def isWord (text : String) : Bool :=
  text ≠ "" ∧ text.toList.all isWordChar

theorem run_wordChars {word : List Char} (hword : word.all isWordChar = true) (seen : List Char) :
    run (.word seen) word = some (.word (word.reverse ++ seen), []) := by
  induction word generalizing seen with
  | nil => rfl
  | cons c word ih =>
      rw [List.all_cons, Bool.and_eq_true] at hword
      have hstep : step (.word seen) c = some (.word (c :: seen), []) := by
        rw [step, if_pos hword.1]
      rw [List.reverse_cons, List.append_assoc]
      exact run_cons hstep (ih hword.2 (c :: seen))

theorem start_wordChar {c : Char} (hword : isWordChar c = true) : start c = (.word [c], []) := by
  simp only [isWordChar, decide_eq_true_eq, not_or] at hword
  obtain ⟨hquote, hcomment, hsymbol, hblank⟩ := hword
  rw [start, if_neg hquote, if_neg hcomment, if_neg hsymbol, if_neg hblank]

/-- A word is read when a character follows that is not one of a word. -/
theorem reads_word {word : String} (hword : isWord word = true) {c : Char}
    (hend : isWordChar c = false) :
    Reads .between (word ++ String.singleton c) (start c).1 (.word word :: (start c).2) := by
  obtain ⟨hne, hall⟩ : word ≠ "" ∧ word.toList.all isWordChar = true := by
    simpa [isWord] using hword
  obtain ⟨first, rest, hchars⟩ : ∃ first rest, word.toList = first :: rest :=
    List.exists_cons_of_ne_nil fun hnil => hne (String.toList_eq_nil_iff.mp hnil)
  rw [hchars, List.all_cons, Bool.and_eq_true] at hall
  have hfirst : step .between first = some (.word [first], []) := by
    rw [step, start_wordChar hall.1]
  have hvalue : String.ofList (rest.reverse ++ [first]).reverse = word := by
    rw [List.reverse_append, List.reverse_reverse]
    exact (congrArg String.ofList hchars).symm.trans String.ofList_toList
  have hlast : step (.word (rest.reverse ++ [first])) c =
      some ((start c).1, .word word :: (start c).2) := by
    rw [step, if_neg (by rw [hend]; exact Bool.false_ne_true), hvalue]
  rw [← run_singleton] at hlast
  rw [Reads, String.toList_append, hchars, String.toList_singleton]
  exact run_cons hfirst (run_append (run_wordChars hall.2 [first]) hlast)

/-- A name with its equals sign. -/
theorem reads_name {name : String} (hname : isWord name = true) :
    Reads .between (name ++ "=") .between [.word name, .symbol '='] := by
  have hsymbol : start '=' = (.between, [.symbol '=']) := by decide
  have hread := reads_word hname (c := '=') (by decide)
  rw [hsymbol] at hread
  exact hread

/-- The characters of a number in decimal. -/
theorem isDigit_or_eq_of_mem_int {n : Int} {c : Char} (hmem : c ∈ (toString n).toList) :
    c.isDigit = true ∨ c = '-' := by
  rw [Int.toString_eq_repr, Int.repr_eq_if] at hmem
  split at hmem
  · rw [Nat.toList_repr] at hmem
    exact .inl (Nat.isDigit_of_mem_toDigits (by decide) (by decide) hmem)
  · rw [String.toList_append, Nat.toList_repr, List.mem_append] at hmem
    rcases hmem with hsign | hdigit
    · exact .inr (by simpa using hsign)
    · exact .inl (Nat.isDigit_of_mem_toDigits (by decide) (by decide) hdigit)

theorem isWordChar_numeral {c : Char} (hnumeral : c.isDigit = true ∨ c = '-') :
    isWordChar c = true := by
  cases hother : isWordChar c with
  | true => rfl
  | false =>
      exfalso
      revert hnumeral
      simp only [isWordChar, isSymbol, Char.isWhitespace, decide_eq_false_iff_not,
        Decidable.not_not, decide_eq_true_eq, List.mem_cons, Bool.or_eq_true, List.not_mem_nil,
        or_false, or_assoc] at hother
      rcases hother with
        rfl | rfl | rfl | rfl | rfl | rfl | rfl | rfl | rfl | rfl | rfl | rfl | rfl | rfl
      all_goals decide

/-- A number in decimal is one word. -/
theorem isWord_int (n : Int) : isWord (toString n) = true := by
  have hne : toString n ≠ "" := by
    rw [Int.toString_eq_repr, Int.repr_eq_if]
    split <;> simp
  have hall : (toString n).toList.all isWordChar = true :=
    List.all_eq_true.mpr fun c hmem => isWordChar_numeral (isDigit_or_eq_of_mem_int hmem)
  rw [isWord, decide_eq_true_eq]
  exact ⟨hne, hall⟩

/-- A number is read as a word when a blank follows. -/
theorem reads_numeral (n : Int) :
    Reads .between (toString n ++ " ") .between [.word (toString n)] := by
  have hblank : start ' ' = (.between, []) := by decide
  have hread := reads_word (isWord_int n) (c := ' ') (by decide)
  rw [hblank] at hread
  exact hread

/-- A blank ends what the end of a text would end. -/
theorem finish_of_blank {mode : Mode} {tokens : List Token}
    (hstep : step mode ' ' = some (.between, tokens)) : finish mode = some tokens := by
  have hblank : start ' ' = (.between, []) := by decide
  cases mode with
  | between =>
      rw [step, hblank] at hstep
      cases hstep
      rfl
  | word seen =>
      have hend : isWordChar ' ' = false := by decide
      rw [step, hend, hblank] at hstep
      cases hstep
      rfl
  | literal seen => cases hstep
  | escape seen => cases hstep
  | comment => cases hstep

/-- A blank at the end of a text ends its last token, as the end of the text itself does. -/
theorem lex_of_reads_blank {text : String} {tokens : List Token}
    (hreads : Reads .between (text ++ " ") .between tokens) : lex text = some tokens := by
  rw [Reads, String.toList_append] at hreads
  obtain ⟨mode, first, others, hrun, hblank, rfl⟩ := exists_run_of_append hreads
  have hfinish : finish mode = some others := by
    apply finish_of_blank
    rw [← run_singleton]
    exact hblank
  rw [lex, hrun]
  dsimp only [Option.bind_eq_bind, Option.bind_some]
  rw [hfinish]
  rfl
/-- A number may stand between quotes as it is. -/
theorem literalBody_int (n : Int) : literalBody (toString n) = toString n := by
  have hplain : ∀ c ∈ (toString n).toList, escapedChar c = [c] := by
    intro c hmem
    rcases isDigit_or_eq_of_mem_int hmem with hdigit | rfl
    · have hne : ∀ special : Char, special.isDigit = false → c ≠ special := by
        rintro special hspecial rfl
        rw [hdigit] at hspecial
        cases hspecial
      simp [escapedChar, hne '\\' rfl, hne '"' rfl, hne '\n' rfl, hne '\r' rfl, hne '\t' rfl]
    · rfl
  rw [literalBody, List.flatMap_def, List.map_congr_left hplain, ← List.flatMap_def,
    List.flatMap_singleton', String.ofList_toList]

end Lexer

end LogForwarding.Forwarder
