import LogForwarding.Proofs.Forwarder.Lexer

/-!
Which tokens a text has, with places left open for texts that it carries.  A layout says nothing of
the texts at its open places, so what is written with a layout that does not depend on them has the
same tokens everywhere else.
-/

namespace LogForwarding.Forwarder

/-- The tokens of a text, with none where the text carries a literal. -/
abbrev Layout := List (Option Token)

namespace Layout

/-- The tokens with a value in each open place, in order. -/
def fill : Layout → List String → Option (List Token)
  | [], [] => some []
  | some token :: rest, values => (fill rest values).map (token :: ·)
  | none :: rest, value :: values => (fill rest values).map (.literal value :: ·)
  | [], _ :: _ | none :: _, [] => none

/-- The layout of a text that carries nothing. -/
def ofText (text : String) : Layout :=
  ((lex text).getD []).map some

/-- A list of literals. -/
def bracketed (count : Nat) : Layout :=
  [some (.symbol '[')] ++ [some (.symbol ',')].intercalate (List.replicate count [none]) ++
    [some (.symbol ']')]

theorem fill_map_some (tokens : List Token) : fill (tokens.map some) [] = some tokens := by
  induction tokens with
  | nil => rfl
  | cons token tokens ih => rw [List.map_cons, fill, ih]; rfl

theorem fill_append {front rest : Layout} {values others : List String} {first last : List Token}
    (hfront : front.fill values = some first) (hrest : rest.fill others = some last) :
    (front ++ rest).fill (values ++ others) = some (first ++ last) := by
  induction front generalizing values first with
  | nil =>
      cases values with
      | nil =>
          cases hfront
          exact hrest
      | cons value values => cases hfront
  | cons place front ih =>
      cases place with
      | some token =>
          obtain ⟨tokens, htokens, rfl⟩ := Option.map_eq_some_iff.mp hfront
          rw [List.cons_append, fill, ih htokens]
          rfl
      | none =>
          cases values with
          | nil => cases hfront
          | cons value values =>
              obtain ⟨tokens, htokens, rfl⟩ := Option.map_eq_some_iff.mp hfront
              rw [List.cons_append, List.cons_append, fill, ih htokens]
              rfl

/-- What is read of tokens other than literals is read of the layout itself. -/
theorem filterMap_of_fill {α : Type} {read : Token → Option α}
    (hliteral : ∀ value, read (.literal value) = none) {layout : Layout} {values : List String}
    {tokens : List Token} (hfill : layout.fill values = some tokens) :
    tokens.filterMap read = layout.filterMap (·.bind read) := by
  induction layout generalizing values tokens with
  | nil =>
      cases values with
      | nil =>
          cases hfill
          rfl
      | cons value values => cases hfill
  | cons place layout ih =>
      cases place with
      | some first =>
          obtain ⟨rest, hrest, rfl⟩ := Option.map_eq_some_iff.mp hfill
          rw [List.filterMap_cons, List.filterMap_cons, ih hrest, Option.bind_some]
      | none =>
          cases values with
          | nil => cases hfill
          | cons value values =>
              obtain ⟨rest, hrest, rfl⟩ := Option.map_eq_some_iff.mp hfill
              rw [List.filterMap_cons_none (hliteral value), List.filterMap_cons_none rfl, ih hrest]

/-- A token that is not a literal stands in the layout itself. -/
theorem count_of_fill {token : Token} (hother : ∀ value, token ≠ .literal value) {layout : Layout}
    {values : List String} {tokens : List Token} (hfill : layout.fill values = some tokens) :
    tokens.count token = layout.count (some token) := by
  have hliteral : ∀ value, Option.guard (· == token) (Token.literal value) = none := by
    intro value
    simpa using (hother value).symm
  have hread := congrArg List.length (filterMap_of_fill hliteral hfill)
  rw [List.length_filterMap_eq_countP, List.length_filterMap_eq_countP] at hread
  have hplace : ∀ place : Option Token,
      (place.bind (Option.guard (· == token))).isSome = (place == some token) := by
    intro place
    cases place <;> simp
  simpa [List.count, hplace] using hread

theorem notMem_intercalate {α : Type} {item : α} {separator : List α} {lists : List (List α)}
    (hseparator : item ∉ separator) (hlists : ∀ list ∈ lists, item ∉ list) :
    item ∉ separator.intercalate lists := by
  induction lists with
  | nil => simp
  | cons list lists ih =>
      have hfirst := hlists list List.mem_cons_self
      have hrest : ∀ other ∈ lists, item ∉ other := fun other hmem =>
        hlists other (List.mem_cons_of_mem list hmem)
      cases lists with
      | nil => simpa using hfirst
      | cons next lists =>
          rw [List.intercalate_cons_cons]
          simp [hfirst, hseparator, ih hrest]

/-- There are only brackets and commas in a list of literals. -/
theorem notMem_bracketed {token : Token}
    (hother : token ∉ [.symbol '[', .symbol ',', .symbol ']']) (count : Nat) :
    some token ∉ bracketed count := by
  simp only [List.mem_cons, List.not_mem_nil, or_false, not_or] at hother
  have hcomma : some token ∉ [some (Token.symbol ',')] := by simpa using hother.2.1
  have hopen : ∀ layout ∈ List.replicate count [none], some token ∉ layout := by simp
  have hitems := notMem_intercalate hcomma hopen
  simpa [bracketed, hother.1, hother.2.2] using hitems

theorem word_notMem_bracketed (word : String) (count : Nat) :
    some (.word word) ∉ bracketed count :=
  notMem_bracketed (by simp) count

end Layout

/-- The text is read from between two tokens to between two tokens, and its tokens are those of the
layout with the values in its open places. -/
def Writes (text : String) (layout : Layout) (values : List String) : Prop :=
  ∃ tokens, Lexer.Reads .between text .between tokens ∧ layout.fill values = some tokens

namespace Writes

theorem append {front rest : String} {first last : Layout} {values others : List String}
    (hfront : Writes front first values) (hrest : Writes rest last others) :
    Writes (front ++ rest) (first ++ last) (values ++ others) := by
  obtain ⟨tokens, hreads, hfill⟩ := hfront
  obtain ⟨remaining, hreadsRest, hfillRest⟩ := hrest
  exact ⟨tokens ++ remaining, hreads.append hreadsRest, Layout.fill_append hfill hfillRest⟩

theorem empty : Writes "" [] [] := ⟨[], rfl, rfl⟩

theorem ofTokens {text : String} {tokens : List Token}
    (hreads : Lexer.Reads .between text .between tokens) : Writes text (tokens.map some) [] :=
  ⟨tokens, hreads, Layout.fill_map_some tokens⟩

theorem ofText {text : String}
    (hreads : Lexer.Reads .between text .between ((lex text).getD [])) :
    Writes text (Layout.ofText text) [] :=
  ofTokens hreads

/-- A quoted text fills one open place, and the value there is the text. -/
theorem literal (text : String) : Writes (literal text) [none] [text] :=
  ⟨[.literal text], Lexer.reads_literal text, rfl⟩

theorem lex {text : String} {layout : Layout} {values : List String}
    (hwrites : Writes text layout values) :
    ∃ tokens, lex text = some tokens ∧ layout.fill values = some tokens := by
  obtain ⟨tokens, hreads, hfill⟩ := hwrites
  exact ⟨tokens, Lexer.lex_of_reads hreads, hfill⟩

end Writes

/-- Several texts, each with its layout, and the values of all of them. -/
inductive WritesEach : List String → List Layout → List String → Prop where
  | nil : WritesEach [] [] []
  | cons {text : String} {layout : Layout} {values : List String} {texts : List String}
      {layouts : List Layout} {others : List String} (hfirst : Writes text layout values)
      (hrest : WritesEach texts layouts others) :
      WritesEach (text :: texts) (layout :: layouts) (values ++ others)

namespace WritesEach

variable {texts others : List String} {layouts rest : List Layout} {values remaining : List String}

theorem singleton {text : String} {layout : Layout} (hwrites : Writes text layout values) :
    WritesEach [text] [layout] values := by
  simpa using cons hwrites nil

theorem eq_nil (hwrites : WritesEach [] layouts values) : layouts = [] ∧ values = [] := by
  cases hwrites
  exact ⟨rfl, rfl⟩

theorem append (hfront : WritesEach texts layouts values)
    (hrest : WritesEach others rest remaining) :
    WritesEach (texts ++ others) (layouts ++ rest) (values ++ remaining) := by
  induction hfront with
  | nil => exact hrest
  | cons hfirst _ ih =>
      rw [List.append_assoc]
      exact cons hfirst ih

theorem map {α : Type} {text : α → String} {layout : α → Layout} {value : α → List String}
    (hitem : ∀ item, Writes (text item) (layout item) (value item)) (items : List α) :
    WritesEach (items.map text) (items.map layout) (items.flatMap value) := by
  induction items with
  | nil => exact nil
  | cons item items ih => exact cons (hitem item) ih

/-- Every text with something in front of it and behind it that carries nothing. -/
theorem between {front back : String} {first last : Layout} (hfront : Writes front first [])
    (hback : Writes back last []) (hwrites : WritesEach texts layouts values) :
    WritesEach (texts.map fun text => front ++ (text ++ back))
      (layouts.map fun layout => first ++ (layout ++ last)) values := by
  induction hwrites with
  | nil => exact nil
  | cons hitem _ ih =>
      have hfirst := hfront.append (hitem.append hback)
      rw [List.append_nil, List.nil_append] at hfirst
      exact cons hfirst ih

theorem join (hwrites : WritesEach texts layouts values) :
    Writes (String.join texts) layouts.flatten values := by
  induction hwrites with
  | nil => exact Writes.empty
  | cons hfirst _ ih =>
      rw [String.join_cons, List.flatten_cons]
      exact hfirst.append ih

theorem intercalate {separator : String} {parting : Layout} (hparting : Writes separator parting [])
    (hwrites : WritesEach texts layouts values) :
    Writes (separator.intercalate texts) (parting.intercalate layouts) values := by
  induction hwrites with
  | nil => exact Writes.empty
  | cons hfirst hrest ih =>
      cases hrest with
      | nil =>
          rw [String.intercalate_singleton, List.intercalate_singleton, List.append_nil]
          exact hfirst
      | cons _ _ =>
          rw [String.intercalate_cons_cons, List.intercalate_cons_cons]
          have hfront := hfirst.append hparting
          rw [List.append_nil] at hfront
          exact hfront.append ih

end WritesEach

/-- A list of quoted texts has one open place for each of them. -/
theorem Writes.literalList (texts : List String) :
    Writes (literalList texts) (Layout.bracketed texts.length) texts := by
  have hopen : Writes "[" [some (.symbol '[')] [] := ⟨[.symbol '['], by decide, rfl⟩
  have hclose : Writes "]" [some (.symbol ']')] [] := ⟨[.symbol ']'], by decide, rfl⟩
  have hcomma : Writes "," [some (.symbol ',')] [] := ⟨[.symbol ','], by decide, rfl⟩
  have hitems := WritesEach.intercalate hcomma (WritesEach.map Writes.literal texts)
  rw [List.map_const', List.flatMap_singleton'] at hitems
  simpa [Forwarder.literalList, Layout.bracketed] using (hopen.append hitems).append hclose

end LogForwarding.Forwarder
