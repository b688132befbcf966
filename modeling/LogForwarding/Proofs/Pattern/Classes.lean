import LogForwarding.Proofs.Pattern.Gate
import LogForwarding.Proofs.Pattern.Members

/-!
The classes of characters in an accepted pattern.  The tree that the dialect reads has one class for
each bracket expression of the pattern, in their order, and each of them has the items that POSIX
gives the expression.
-/

namespace LogForwarding.Pattern

mutual

/-- The bracket expressions in a tree, from left to right. -/
def Ast.brackets : Ast → List (Bool × ClassSet)
  | .bracket negated set => [(negated, set)]
  | .repetition _ _ body => body.brackets
  | .group _ body => body.brackets
  | .concat parts => allBrackets parts
  | .alternation branches => allBrackets branches
  | .literal _ _ | .empty | .dot | .startOfText | .endOfText | .assertion _ | .letterClass _
  | .property _ _ | .setFlags _ => []

def allBrackets : List Ast → List (Bool × ClassSet)
  | [] => []
  | part :: rest => part.brackets ++ allBrackets rest

end

@[simp]
theorem allBrackets_append (parts parts' : List Ast) :
    allBrackets (parts ++ parts') = allBrackets parts ++ allBrackets parts' := by
  induction parts with
  | nil => rfl
  | cons part parts ih => simp [allBrackets, ih]

@[simp]
theorem brackets_concatOf (parts : List Ast) : (concatOf parts).brackets = allBrackets parts := by
  unfold concatOf
  split
  · rfl
  · simp [allBrackets]
  · rw [Ast.brackets]

@[simp]
theorem brackets_alternationOf (branches : List Ast) :
    (alternationOf branches).brackets = allBrackets branches := by
  unfold alternationOf
  split
  · simp [allBrackets]
  · rw [Ast.brackets]

theorem allBrackets_of_repeatLast {range : Repetition} {greedy : Bool} {parts parts' : List Ast}
    (hrepeat : repeatLast range greedy parts = some parts') :
    allBrackets parts'.reverse = allBrackets parts.reverse := by
  unfold repeatLast at hrepeat
  split at hrepeat
  · cases hrepeat
  · cases hrepeat
  · cases hrepeat
    simp [allBrackets, Ast.brackets]

theorem brackets_of_readEscape {cs rest : List Char} {part : Ast}
    (hread : readEscape cs = some (part, rest)) : part.brackets = [] := by
  unfold readEscape at hread
  split at hread
  · cases hread
  · split at hread
    · cases hread
      rfl
    · split at hread
      · cases hread
        rfl
      · split at hread
        · obtain ⟨_, -, hmap⟩ := Option.map_eq_some_iff.mp hread
          cases hmap
          rfl
        · split at hread
          · cases hread
            rfl
          · split at hread
            · cases hread
              rfl
            · obtain ⟨_, -, hmap⟩ := Option.map_eq_some_iff.mp hread
              cases hmap
              rfl
            · cases hread

/-! ### The expressions of a pattern, and the places where they are read -/

/-- The bracket expressions among some pieces, each with the escaped text behind it. -/
def bracketsOf : List Piece → List (Bracket × List Char)
  | [] => []
  | .bracket bracket :: rest => (bracket, rest.flatMap Piece.escapedText) :: bracketsOf rest
  | _ :: rest => bracketsOf rest

theorem mem_of_mem_bracketsOf {parts : List Piece} {found : Bracket × List Char}
    (hfound : found ∈ bracketsOf parts) : Piece.bracket found.1 ∈ parts := by
  fun_induction bracketsOf parts with
  | case1 => cases hfound
  | case2 bracket rest ih =>
      rcases List.mem_cons.mp hfound with rfl | hfound
      · exact List.mem_cons_self
      · exact List.mem_cons_of_mem _ (ih hfound)
  | case3 piece rest _ ih => exact List.mem_cons_of_mem _ (ih hfound)

theorem exists_mem_bracketsOf {parts : List Piece} {bracket : Bracket}
    (hbracket : Piece.bracket bracket ∈ parts) : ∃ more, (bracket, more) ∈ bracketsOf parts := by
  induction parts with
  | nil => cases hbracket
  | cons piece parts ih =>
      rcases List.mem_cons.mp hbracket with rfl | hbracket
      · exact ⟨_, List.mem_cons_self⟩
      · obtain ⟨more, hmore⟩ := ih hbracket
        cases piece with
        | bracket other => exact ⟨more, List.mem_cons_of_mem _ hmore⟩
        | escape c => exact ⟨more, hmore⟩
        | loneBackslash => exact ⟨more, hmore⟩
        | single c => exact ⟨more, hmore⟩

/-- Every expression of a pattern has been scanned. -/
theorem exists_scan_of_mem_pieces {cs : List Char} {bracket : Bracket}
    (hbracket : Piece.bracket bracket ∈ pieces cs) :
    ∃ behind, bracket = (Bracket.scan behind).1 := by
  fun_induction pieces cs with
  | case1 => cases hbracket
  | case2 => simp at hbracket
  | case3 c rest ih => exact ih (by simpa using hbracket)
  | case4 rest ih =>
      rcases List.mem_cons.mp hbracket with hfirst | hrest
      · exact ⟨rest, Piece.bracket.inj hfirst⟩
      · exact ih hrest
  | case5 c rest _ _ _ ih => exact ih (by simpa using hbracket)

/-- The dialect reads an expression before a text as the class that it stands for, up to its closing
bracket, and goes on with that text. -/
def Bracket.IsReadBefore (bracket : Bracket) (more : List Char) : Prop :=
  bracket.closed ∧ ∃ fuel, readBracket fuel (bracket.escapedText.tail ++ more) =
    some (bracket.negated, .items (classItems bracket.members), more)

/-- A text at the beginning of a piece, with the expressions that are still to be read in it. -/
structure Awaits (text : List Char) (brackets : List (Bracket × List Char)) : Prop where
  literal : ∀ found ∈ brackets, found.1.isLiteral
  gated : ∃ afterRepetition cs, Gated afterRepetition cs ∧ text = escapeBrackets cs ∧
    brackets = bracketsOf (pieces cs)

/-- How such a text goes on. -/
inductive Awaits.Step : List Char → List (Bracket × List Char) → Prop where
  | nil : Step [] []
  | escape {c : Char} {text : List Char} {brackets : List (Bracket × List Char)}
      (hc : c ∉ Ere.perlEscapes) (hrest : Awaits text brackets) : Step ('\\' :: c :: text) brackets
  | bracket {text more : List Char} {bracket : Bracket} {brackets : List (Bracket × List Char)}
      (htext : text = bracket.escapedText.tail ++ more)
      (hread : ∀ fuel negated set rest, readBracket fuel text = some (negated, set, rest) →
        bracket.closed ∧ (negated, set) = bracket.asClass ∧ rest = more)
      (hrest : Awaits more brackets) : Step ('[' :: text) ((bracket, more) :: brackets)
  | single {c : Char} {text : List Char} {brackets : List (Bracket × List Char)} (hc : IsSingle c)
      (hrest : Awaits text brackets) (hflags : c = '(' → text.head? ≠ some '?') :
      Step (c :: text) brackets

variable {text rest : List Char} {brackets : List (Bracket × List Char)}

theorem Awaits.step (htext : Awaits text brackets) : Awaits.Step text brackets := by
  obtain ⟨hliteral, afterRepetition, cs, hgated, rfl, rfl⟩ := htext
  cases hgated.step with
  | nil =>
      rw [escapeBrackets_nil, pieces]
      exact .nil
  | @escape c cs hc hrest =>
      rw [pieces_escape] at hliteral ⊢
      rw [escapeBrackets_escape]
      exact .escape hc ⟨hliteral, false, cs, hrest, rfl, rfl⟩
  | @bracket cs _ hrest =>
      rw [pieces_bracket] at hliteral ⊢
      rw [escapeBrackets_bracket]
      obtain ⟨hfirst, hothers⟩ := List.forall_mem_cons.mp hliteral
      refine .bracket rfl (fun fuel negated set rest hread => ?_)
        ⟨hothers, false, _, hrest, rfl, rfl⟩
      have hscanned := Bracket.scan_scanned cs
      have hmore : (Bracket.scan cs).2 = [] → escapeBrackets (Bracket.scan cs).2 = [] :=
        fun hbehind => by rw [hbehind, escapeBrackets_nil]
      exact ⟨hscanned.closed_of_readBracket (Bracket.isPlain_of_isLiteral hfirst) hmore hread,
        hscanned.readBracket_eq hfirst hmore hread⟩
  | @single c cs hc _ hflags hrest =>
      rw [pieces_single hc] at hliteral ⊢
      rw [escapeBrackets_single hc]
      refine .single hc ⟨hliteral, _, cs, hrest, rfl, rfl⟩ fun hopen hhead => ?_
      exact hflags hopen (hrest.head?_eq (by decide) hhead)

theorem Awaits.single {c : Char} (htext : Awaits (c :: text) brackets) (hc : IsSingle c) :
    Awaits text brackets ∧ (c = '(' → text.head? ≠ some '?') := by
  generalize hcons : c :: text = cs at htext
  cases htext.step with
  | nil => cases hcons
  | escape _ _ => exact absurd (List.cons.inj hcons).1 hc.1
  | bracket _ _ _ => exact absurd (List.cons.inj hcons).1 hc.2
  | single _ hrest hflags =>
      obtain ⟨rfl, rfl⟩ := List.cons.inj hcons
      exact ⟨hrest, hflags⟩

theorem Awaits.behind (htext : Awaits text brackets) (hrest : Behind text rest) :
    Awaits rest brackets := by
  induction hrest with
  | here => exact htext
  | there hc _ ih => exact ih (htext.single hc).1

theorem Awaits.escape {part : Ast} (htext : Awaits ('\\' :: text) brackets)
    (hread : readEscape text = some (part, rest)) : Awaits rest brackets := by
  generalize hcons : '\\' :: text = cs at htext
  cases htext.step with
  | nil => cases hcons
  | escape hc hrest =>
      obtain rfl := (List.cons.inj hcons).2
      exact hrest.behind (readEscape_behind hc hread).2
  | bracket _ _ _ => cases hcons
  | single hc _ _ => exact absurd (List.cons.inj hcons).1.symm hc.1

theorem Awaits.repetition {range : Repetition} (htext : Awaits text brackets)
    (hread : readRepetition text = some (range, rest)) : Awaits rest brackets := by
  obtain ⟨c, hc, -, hbehind⟩ := readRepetition_behind hread
  exact ((htext.behind hbehind).single hc).1

/-- The expressions that are read between two places, and the classes that are made of them. -/
def Passed (brackets left : List (Bracket × List Char)) (classes : List (Bool × ClassSet)) : Prop :=
  ∃ passed, brackets = passed ++ left ∧ classes = passed.map (fun found => found.1.asClass) ∧
    ∀ found ∈ passed, found.1.IsReadBefore found.2

theorem Passed.refl (brackets : List (Bracket × List Char)) : Passed brackets brackets [] :=
  ⟨[], rfl, rfl, by simp⟩

theorem Passed.trans {left last : List (Bracket × List Char)}
    {classes more : List (Bool × ClassSet)} (hfirst : Passed brackets left classes)
    (hsecond : Passed left last more) :
    Passed brackets last (classes ++ more) := by
  obtain ⟨passed, rfl, rfl, hpassed⟩ := hfirst
  obtain ⟨passed', rfl, rfl, hpassed'⟩ := hsecond
  refine ⟨passed ++ passed', by simp, by simp, fun found hfound => ?_⟩
  rcases List.mem_append.mp hfound with hmem | hmem
  · exact hpassed found hmem
  · exact hpassed' found hmem

/-- Reading an expression passes it. -/
theorem Awaits.bracket {fuel : Nat} {negated : Bool} {set : ClassSet}
    (htext : Awaits ('[' :: text) brackets)
    (hread : readBracket fuel text = some (negated, set, rest)) :
    ∃ left, Awaits rest left ∧ Passed brackets left [(negated, set)] := by
  generalize hcons : '[' :: text = cs at htext
  cases htext.step with
  | nil => cases hcons
  | escape _ _ => cases hcons
  | @bracket text' more bracket left htext' hbracket hrest =>
      obtain rfl := (List.cons.inj hcons).2
      obtain ⟨hclosed, hclass, rfl⟩ := hbracket fuel negated set rest hread
      obtain ⟨rfl, rfl⟩ := Prod.mk.inj hclass
      rw [htext'] at hread
      exact ⟨left, hrest, [(bracket, rest)], rfl, rfl, by simpa using ⟨hclosed, fuel, hread⟩⟩
  | single hc _ _ => exact absurd (List.cons.inj hcons).1.symm hc.2

/-! ### Reading an accepted pattern -/

/-- What is read of a text up to another one, behind what was read before: the classes in the tree
are those from before and those of the expressions that are passed. -/
def ReadsOn (brackets : List (Bracket × List Char)) (rest : List Char)
    (before : List (Bool × ClassSet)) (ast : Ast) : Prop :=
  ∃ left classes, Awaits rest left ∧ Passed brackets left classes ∧ ast.brackets = before ++ classes

theorem Passed.readsOn {left : List (Bracket × List Char)}
    {classes before : List (Bool × ClassSet)} {ast : Ast} (hfirst : Passed brackets left classes)
    (hreads : ReadsOn left rest (before ++ classes) ast) : ReadsOn brackets rest before ast := by
  obtain ⟨last, more, hlast, hpassed, hbrackets⟩ := hreads
  exact ⟨last, classes ++ more, hlast, hfirst.trans hpassed, by rw [hbrackets, List.append_assoc]⟩

theorem allBrackets_reverse_cons (part : Ast) (parts : List Ast) :
    allBrackets (part :: parts).reverse = allBrackets parts.reverse ++ part.brackets := by
  simp [allBrackets]

theorem IsReadAlone.brackets_eq_nil {c : Char} {part : Ast} (hpart : IsReadAlone c part) :
    part.brackets = [] := by
  rcases hpart with rfl | rfl | rfl | rfl <;> rfl

/-- A part without expressions passes none. -/
theorem ReadsOn.of_part {before : List (Bool × ClassSet)} {part ast : Ast} {parts : List Ast}
    (hpart : part.brackets = [])
    (hreads : ReadsOn brackets rest (before ++ allBrackets (part :: parts).reverse) ast) :
    ReadsOn brackets rest (before ++ allBrackets parts.reverse) ast := by
  rwa [allBrackets_reverse_cons, hpart, List.append_nil] at hreads

/-- The classes in what the reader makes of a text are those of the expressions that it passes. -/
theorem Derives.readsOn {branches parts : List Ast} {ast : Ast}
    (hderives : Derives branches parts text ast rest) (htext : Awaits text brackets) :
    ReadsOn brackets rest (allBrackets branches.reverse ++ allBrackets parts.reverse) ast := by
  induction hderives generalizing brackets with
  | finished =>
      refine ⟨brackets, [], htext, .refl brackets, ?_⟩
      rw [brackets_alternationOf, allBrackets_reverse_cons, brackets_concatOf, List.append_nil]
  | branch _ ih =>
      have hbranch := ih (htext.single (by decide)).1
      rwa [allBrackets_reverse_cons, brackets_concatOf, List.reverse_nil, allBrackets,
        List.append_nil] at hbranch
  | group hkind _ _ ihbody ihlater =>
      obtain ⟨hinner, hflags⟩ := htext.single (by decide)
      rw [readGroupKind_of_head?_ne (hflags rfl)] at hkind
      cases hkind
      obtain ⟨inside, classes, hmore, hinside, hclasses⟩ := ihbody hinner
      refine hinside.readsOn ?_
      have hlater := ihlater (hmore.single (by decide)).1
      rw [allBrackets_reverse_cons, Ast.brackets, hclasses] at hlater
      simpa [allBrackets] using hlater
  | setFlags hkind _ _ =>
      obtain ⟨-, hflags⟩ := htext.single (by decide)
      rw [readGroupKind_of_head?_ne (hflags rfl)] at hkind
      cases hkind
  | bracket hread _ ih =>
      obtain ⟨behind, hbehind, hfirst⟩ := htext.bracket hread
      refine hfirst.readsOn ?_
      have hlater := ih hbehind
      rwa [allBrackets_reverse_cons, Ast.brackets, ← List.append_assoc] at hlater
  | escape hread _ ih => exact (ih (htext.escape hread)).of_part (brackets_of_readEscape hread)
  | single hc hpart _ ih => exact (ih (htext.single hc).1).of_part hpart.brackets_eq_nil
  | repeated hrange hrepeat _ ih =>
      rw [← allBrackets_of_repeatLast hrepeat]
      exact ih (htext.repetition hrange)
  | lazily hrange hrepeat _ ih =>
      -- Behind a repetition the reader takes a question mark as part of it.
      rw [← allBrackets_of_repeatLast hrepeat]
      exact ih ((htext.repetition hrange).single (by decide)).1

/-- The classes in the tree of a whole text are those of its expressions, and each is read to its
end. -/
theorem Awaits.read? {ast : Ast} (htext : Awaits text brackets)
    (hread : Ast.read? text = some ast) :
    ast.brackets = brackets.map (fun found => found.1.asClass) ∧
      ∀ found ∈ brackets, found.1.IsReadBefore found.2 := by
  unfold Ast.read? at hread
  split at hread
  · rename_i hparts
    split at hread
    · cases hread
      obtain ⟨left, classes, hleft, ⟨passed, rfl, rfl, hreads⟩, hbrackets⟩ :=
        (derives_of_readParts hparts).readsOn htext
      cases hleft.step
      rw [List.append_nil]
      exact ⟨hbrackets, hreads⟩
    · cases hread
  · cases hread

end LogForwarding.Pattern

namespace LogForwarding

open Pattern

/-- What is handed on for an accepted pattern is read with one class for each bracket expression, in
their order, each from its opening to its closing bracket and with just the characters, ranges and
named classes that the expression has, if and only if every expression is literal: no two hyphens
meet in it where they would be an operation or stand for themselves, and no class in it is unknown
or ends a range. -/
theorem Ere.brackets_read_iff {pattern text : String} (hcompile : compile pattern = .ok text) :
    (∃ ast, Ast.read? text.toList = some ast ∧
      ast.brackets =
        (bracketsOf (pieces pattern.toList)).map (fun found => found.1.asClass) ∧
      ∀ found ∈ bracketsOf (pieces pattern.toList), found.1.IsReadBefore found.2) ↔
    ∀ bracket, Piece.bracket bracket ∈ pieces pattern.toList → bracket.isLiteral := by
  constructor
  · rintro ⟨-, -, -, hreads⟩ bracket hbracket
    obtain ⟨more, hfound⟩ := exists_mem_bracketsOf hbracket
    obtain ⟨cs, rfl⟩ := exists_scan_of_mem_pieces hbracket
    obtain ⟨hclosed, fuel, hread⟩ := hreads _ hfound
    exact (Bracket.scan_scanned cs).isLiteral_of_readBracket hclosed hread
  · intro hliteral
    obtain ⟨hforeign, htext, ast, hread⟩ := exists_of_compile hcompile
    have hgated : Gated false pattern.toList := by
      refine ⟨hforeign, fun bracket hbracket => ?_⟩
      exact Bracket.isPlain_of_isLiteral (hliteral bracket hbracket)
    have hawaits : Awaits (escapeBrackets pattern.toList) (bracketsOf (pieces pattern.toList)) := by
      refine ⟨fun found hfound => ?_, false, pattern.toList, hgated, rfl, rfl⟩
      exact hliteral found.1 (mem_of_mem_bracketsOf hfound)
    rw [htext]
    exact ⟨ast, hread, hawaits.read? hread⟩

/-- A closing bracket that stands first, a range, all but a backslash, what would be half of an
operation, and a named class. -/
theorem Ere.sample_brackets :
    compile "^[]]+([!-/]foo|[^\\])*[&]?[[:digit:]]$" =
        .ok "^[\\]]+([!-/]foo|[^\\\\])*[\\&]?[[:digit:]]$" ∧
      ∃ ast, Ast.read? "^[\\]]+([!-/]foo|[^\\\\])*[\\&]?[[:digit:]]$".toList = some ast ∧
        ast.brackets =
          [(false, .items [.literal ']' .escaped]), (false, .items [.range '!' '/']),
            (true, .items [.literal '\\' .escaped]), (false, .items [.literal '&' .escaped]),
            (false, .items [.named "digit" false])] := by
  have htext : (compile "^[]]+([!-/]foo|[^\\])*[&]?[[:digit:]]$").toOption =
      some "^[\\]]+([!-/]foo|[^\\\\])*[\\&]?[[:digit:]]$" := by decide +kernel
  have hcompile : compile "^[]]+([!-/]foo|[^\\])*[&]?[[:digit:]]$" =
      .ok "^[\\]]+([!-/]foo|[^\\\\])*[\\&]?[[:digit:]]$" := compile_of_toOption htext
  have hliteral : (pieces "^[]]+([!-/]foo|[^\\])*[&]?[[:digit:]]$".toList).all fun piece =>
      piece.casesOn (fun _ => true) true Bracket.isLiteral fun _ => true := by decide +kernel
  obtain ⟨ast, hread, hbrackets, -⟩ := (brackets_read_iff hcompile).mpr fun bracket hbracket =>
    List.all_eq_true.mp hliteral _ hbracket
  refine ⟨hcompile, ast, hread, hbrackets.trans ?_⟩
  simp [pieces, Bracket.scan, takeHead, scanItems, bracketsOf, Bracket.asClass, Bracket.members,
    classItems, memberForm, needsEscape, classItem]

/-- The range that ends in a hyphen is read as a difference of two sets. -/
example : (Bracket.scan "%--]".toList).1.asClass = (false, .items [.range '%' '-']) ∧
    readBracket 4 (Bracket.scan "%--]".toList).1.escapedText.tail =
      some (false, .operation .difference (.items [.literal '%' .verbatim]) (.items []), []) :=
  ⟨rfl, rfl⟩

end LogForwarding
