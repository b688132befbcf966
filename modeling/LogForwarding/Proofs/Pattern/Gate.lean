import LogForwarding.Pattern.Ere
import LogForwarding.Proofs.Pattern.Bracket

/-!
What an accepted pattern means.  A pattern is searched for constructs of other dialects before it is
compiled, piece by piece, while the dialect that compiles it reads the escaped text by its own rules.
As long as both find the same ends of bracket expressions, every place that the reader gets to is the
beginning of a piece, so the reader can find no construct that the search has not seen.
-/

namespace LogForwarding.Pattern

mutual

/-- Whether a pattern has, outside of bracket expressions, no escape that only other dialects have,
no flags and no lazy repetition. -/
def Ast.isPosix : Ast → Bool
  | .literal _ (.code letter) => letter ∉ Ere.perlEscapes
  | .assertion letter | .letterClass letter | .property letter _ => letter ∉ Ere.perlEscapes
  | .repetition _ greedy body => greedy && body.isPosix
  | .group kind body => kind = .capture && body.isPosix
  | .setFlags _ => false
  | .concat parts => allPosix parts
  | .alternation branches => allPosix branches
  | .literal _ _ | .empty | .dot | .startOfText | .endOfText | .bracket _ _ => true

def allPosix : List Ast → Bool
  | [] => true
  | part :: rest => part.isPosix && allPosix rest

end

theorem allPosix_iff {parts : List Ast} : allPosix parts ↔ ∀ part ∈ parts, part.isPosix := by
  induction parts with
  | nil => simp [allPosix]
  | cons part parts ih => simp [allPosix, ih]

theorem allPosix_reverse {parts : List Ast} : allPosix parts.reverse ↔ allPosix parts := by
  simp only [allPosix_iff, List.mem_reverse]

theorem allPosix_cons {part : Ast} {parts : List Ast} :
    allPosix (part :: parts) ↔ part.isPosix ∧ allPosix parts := by
  simp [allPosix]

theorem isPosix_concatOf {parts : List Ast} (hparts : allPosix parts) :
    (concatOf parts).isPosix := by
  unfold concatOf
  split
  · rfl
  · exact (allPosix_cons.mp hparts).1
  · exact hparts

theorem isPosix_alternationOf {branches : List Ast} (hbranches : allPosix branches) :
    (alternationOf branches).isPosix := by
  unfold alternationOf
  split
  · exact (allPosix_cons.mp hbranches).1
  · exact hbranches

variable {cs rest : List Char}

/-! ### Characters that are pieces of their own -/

/-- A character that begins neither an escape nor a bracket expression. -/
def IsSingle (c : Char) : Prop :=
  c ≠ '\\' ∧ c ≠ '['

instance (c : Char) : Decidable (IsSingle c) :=
  inferInstanceAs (Decidable (_ ∧ _))

/-- The rest of a text behind some single characters. -/
inductive Behind : List Char → List Char → Prop where
  | here (cs : List Char) : Behind cs cs
  | there {c : Char} {cs rest : List Char} (hc : IsSingle c) (hrest : Behind cs rest) :
      Behind (c :: cs) rest

theorem Behind.trans {more : List Char} (hmore : Behind cs more) (hrest : Behind more rest) :
    Behind cs rest := by
  induction hmore with
  | here => exact hrest
  | there hc _ ih => exact .there hc (ih hrest)

theorem Behind.append {body : List Char} (hbody : ∀ c ∈ body, IsSingle c) (rest : List Char) :
    Behind (body ++ rest) rest := by
  induction body with
  | nil => exact .here rest
  | cons c body ih =>
      obtain ⟨hc, hbody⟩ := List.forall_mem_cons.mp hbody
      exact .there hc (ih hbody)

theorem Behind.dropWhile {p : Char → Bool} (hp : ∀ c, p c → IsSingle c) (cs : List Char) :
    Behind cs (cs.dropWhile p) := by
  induction cs with
  | nil => exact .here []
  | cons c cs ih =>
      rw [List.dropWhile_cons]
      split
      · rename_i hc
        exact .there (hp c hc) ih
      · exact .here (c :: cs)

theorem isSingle_of_isBlank {c : Char} (hc : Text.isBlank c) : IsSingle c := by
  constructor <;> rintro rfl <;> exact absurd hc (by decide)

theorem isSingle_of_isDigit {c : Char} (hc : c.isDigit) : IsSingle c := by
  constructor <;> rintro rfl <;> exact absurd hc (by decide)

/-- A number is written in single characters. -/
theorem readDecimal_behind {n : Nat} (hread : readDecimal cs = some (n, rest)) : Behind cs rest := by
  have hblanks := Behind.dropWhile fun _ => isSingle_of_isBlank
  have hdigits := Behind.dropWhile fun _ => isSingle_of_isDigit
  unfold readDecimal at hread
  dsimp only at hread
  split at hread
  · cases hread
  · cases hread
    exact (hblanks cs).trans ((hdigits _).trans (hblanks _))

/-- The bounds of a repetition end with a brace and are written in single characters. -/
theorem readBounds_behind {range : Repetition} (hread : readBounds cs = some (range, rest)) :
    Behind cs ('\x7d' :: rest) := by
  unfold readBounds at hread
  obtain ⟨⟨least, more⟩, hleast, hread⟩ := Option.bind_eq_some_iff.mp hread
  have hmore := readDecimal_behind hleast
  dsimp only at hread
  split at hread
  · cases hread
    exact hmore
  · cases hread
    exact hmore.trans (.there (by decide) (.here _))
  · obtain ⟨⟨most, last⟩, hmost, hread⟩ := Option.bind_eq_some_iff.mp hread
    have hlast := readDecimal_behind hmost
    dsimp only at hread
    split at hread
    · split at hread
      · cases hread
        exact hmore.trans (.there (by decide) hlast)
      · cases hread
    · cases hread
  · cases hread

theorem isSingle_of_hexDigitValue {c : Char} (hc : Bytes.hexDigitValue c ≠ none) : IsSingle c := by
  constructor <;> rintro rfl <;> exact absurd (by decide) hc

/-- Only hexadecimal digits make a number. -/
theorem isSingle_of_ofHex {digits : List Char} {code : Nat} (hcode : ofHex digits = some code) :
    ∀ c ∈ digits, IsSingle c := by
  have hfold : ∀ (digits : List Char) (start : Nat),
      digits.foldlM (fun n c => (Bytes.hexDigitValue c).map (n * 16 + ·)) start = some code →
        ∀ c ∈ digits, IsSingle c := by
    intro digits
    induction digits with
    | nil => simp
    | cons d digits ih =>
        intro start hfold
        rw [List.foldlM_cons] at hfold
        obtain ⟨next, hnext, hfold⟩ := Option.bind_eq_some_iff.mp hfold
        obtain ⟨value, hvalue, -⟩ := Option.map_eq_some_iff.mp hnext
        have hd : IsSingle d := isSingle_of_hexDigitValue (by simp [hvalue])
        exact List.forall_mem_cons.mpr ⟨hd, ih next hfold⟩
  exact hfold digits 0 hcode

/-- A text with a closing brace is the text before the brace, the brace and the rest. -/
theorem eq_takeWhile_append_of_length_ne
    (hlength : cs.length ≠ (cs.takeWhile (· ≠ '\x7d')).length) :
    cs = cs.takeWhile (· ≠ '\x7d') ++
      '\x7d' :: cs.drop ((cs.takeWhile (· ≠ '\x7d')).length + 1) := by
  induction cs with
  | nil => exact absurd rfl hlength
  | cons c cs ih =>
      by_cases hc : c = '\x7d'
      · simp [hc]
      · have hstep : (c :: cs).takeWhile (· ≠ '\x7d') = c :: cs.takeWhile (· ≠ '\x7d') := by
          simp [hc]
        rw [hstep] at hlength ⊢
        have hrest := ih fun heq => hlength (congrArg (· + 1) heq)
        exact congrArg (c :: ·) hrest

/-- A code point is written in single characters. -/
theorem readCode_behind {width : Nat} {c : Char} (hread : readCode width cs = some (c, rest)) :
    Behind cs rest := by
  unfold readCode at hread
  split at hread
  · rename_i more
    obtain ⟨code, hcode, hread⟩ := Option.bind_eq_some_iff.mp hread
    split at hread
    · cases hread
    · rename_i hdigits
      obtain ⟨value, -, hread⟩ := Option.bind_eq_some_iff.mp hread
      cases hread
      have hsplit := eq_takeWhile_append_of_length_ne fun heq => hdigits (Or.inr heq)
      have hmore := Behind.append (isSingle_of_ofHex hcode)
        ('\x7d' :: more.drop ((more.takeWhile (· ≠ '\x7d')).length + 1))
      rw [← hsplit] at hmore
      exact .there (by decide)
        (hmore.trans (.there (by decide) (.here _)))
  · obtain ⟨value, hvalue, hread⟩ := Option.bind_eq_some_iff.mp hread
    obtain ⟨code, hcode, -⟩ := Option.bind_eq_some_iff.mp hvalue
    split at hread
    · cases hread
    · cases hread
      have hbehind := Behind.append (isSingle_of_ofHex hcode) (cs.drop width)
      rwa [List.take_append_drop] at hbehind

/-- An escape that POSIX patterns may have is a part of its own, and nothing else is taken with it
but single characters. -/
theorem readEscape_behind {c : Char} {part : Ast} (hc : c ∉ Ere.perlEscapes)
    (hread : readEscape (c :: cs) = some (part, rest)) : part.isPosix ∧ Behind cs rest := by
  simp only [readEscape] at hread
  split at hread
  · cases hread
    exact ⟨rfl, .here cs⟩
  · split at hread
    · cases hread
      exact ⟨decide_eq_true hc, .here cs⟩
    · split at hread
      · rename_i hproperty
        exfalso
        rcases hproperty with rfl | rfl <;> exact hc (by decide)
      · split at hread
        · cases hread
          exact ⟨decide_eq_true hc, .here cs⟩
        · split at hread
          · cases hread
            exact ⟨rfl, .here cs⟩
          · obtain ⟨⟨value, more⟩, hcode, hmap⟩ := Option.map_eq_some_iff.mp hread
            cases hmap
            exact ⟨decide_eq_true hc, readCode_behind hcode⟩
          · cases hread

/-! ### Pieces of the pattern and what the reader gets to see of them -/

theorem pieces_escape (c : Char) (cs : List Char) :
    pieces ('\\' :: c :: cs) = .escape c :: pieces cs := by
  rw [pieces]

theorem pieces_bracket (cs : List Char) :
    pieces ('[' :: cs) = .bracket (Bracket.scan cs).1 :: pieces (Bracket.scan cs).2 := by
  rw [pieces]

theorem pieces_single {c : Char} (hc : IsSingle c) (cs : List Char) :
    pieces (c :: cs) = .single c :: pieces cs := by
  rw [pieces]
  · rintro rfl
    exact absurd rfl hc.1
  · rintro d more rfl
    exact absurd rfl hc.1
  · rintro rfl
    exact absurd rfl hc.2

theorem escapeBrackets_escape (c : Char) (cs : List Char) :
    escapeBrackets ('\\' :: c :: cs) = '\\' :: c :: escapeBrackets cs := by
  rw [escapeBrackets, pieces_escape]
  rfl

theorem escapeBrackets_bracket (cs : List Char) :
    escapeBrackets ('[' :: cs) =
      (Bracket.scan cs).1.escapedText ++ escapeBrackets (Bracket.scan cs).2 := by
  rw [escapeBrackets, pieces_bracket]
  rfl

theorem escapeBrackets_single {c : Char} (hc : IsSingle c) (cs : List Char) :
    escapeBrackets (c :: cs) = c :: escapeBrackets cs := by
  rw [escapeBrackets, pieces_single hc]
  rfl

/-- The characters behind which a question mark would make a repetition lazy. -/
def endsRepetition (c : Char) : Bool :=
  c = '*' ∨ c = '+' ∨ c = '?' ∨ c = '\x7d'

/-- A text in which the search finds nothing, and of which both sides read the bracket expressions
alike. -/
structure Gated (afterRepetition : Bool) (cs : List Char) : Prop where
  foreign : Ere.foreign? afterRepetition (pieces cs) = none
  plain : ∀ bracket, Piece.bracket bracket ∈ pieces cs → bracket.isPlain

/-- How a text goes on in which the search finds nothing. -/
inductive Gated.Step (afterRepetition : Bool) : List Char → Prop where
  | nil : Step afterRepetition []
  | escape {c : Char} {cs : List Char} (hc : c ∉ Ere.perlEscapes) (hrest : Gated false cs) :
      Step afterRepetition ('\\' :: c :: cs)
  | bracket {cs : List Char} (hplain : (Bracket.scan cs).1.isPlain)
      (hrest : Gated false (Bracket.scan cs).2) : Step afterRepetition ('[' :: cs)
  | single {c : Char} {cs : List Char} (hc : IsSingle c)
      (hlazy : c = '?' → afterRepetition = false) (hflags : c = '(' → cs.head? ≠ some '?')
      (hrest : Gated (endsRepetition c) cs) : Step afterRepetition (c :: cs)

variable {afterRepetition : Bool}

/-- What the search lets pass as a single character. -/
theorem foreign?_single {c : Char} {rest : List Piece}
    (hforeign : Ere.foreign? afterRepetition (.single c :: rest) = none) :
    (c = '?' → afterRepetition = false) ∧ Ere.foreign? (endsRepetition c) rest = none := by
  unfold Ere.foreign? at hforeign
  split at hforeign
  case h_5 => cases hforeign
  case h_6 heq =>
    obtain ⟨heq, rfl⟩ := List.cons.inj heq
    cases heq
    split at hforeign
    · cases hforeign
    · rename_i hlazy
      refine ⟨fun hc => ?_, hforeign⟩
      rw [not_and, Bool.not_eq_true] at hlazy
      exact hlazy hc
  all_goals
    rename_i heq
    cases heq

theorem Gated.step (hgated : Gated afterRepetition cs) : Gated.Step afterRepetition cs := by
  obtain ⟨hforeign, hplain⟩ := hgated
  cases cs with
  | nil => exact .nil
  | cons c cs =>
      by_cases hescape : c = '\\'
      · subst hescape
        cases cs with
        | nil => simp [pieces, Ere.foreign?] at hforeign
        | cons c cs =>
            rw [pieces_escape] at hforeign hplain
            rw [Ere.foreign?] at hforeign
            split at hforeign
            · cases hforeign
            · rename_i hc
              refine .escape hc ⟨hforeign, ?_⟩
              intro bracket hbracket
              exact hplain bracket (List.mem_cons_of_mem _ hbracket)
      · by_cases hopen : c = '['
        · subst hopen
          rw [pieces_bracket] at hforeign hplain
          refine .bracket (hplain _ List.mem_cons_self) ⟨hforeign, ?_⟩
          intro bracket hbracket
          exact hplain bracket (List.mem_cons_of_mem _ hbracket)
        · have hc : IsSingle c := ⟨hescape, hopen⟩
          have hflags : c = '(' → cs.head? ≠ some '?' := by
            rintro rfl hhead
            obtain ⟨more, rfl⟩ := List.head?_eq_some_iff.mp hhead
            rw [pieces_single hc, pieces_single (by decide)] at hforeign
            simp [Ere.foreign?] at hforeign
          rw [pieces_single hc] at hforeign hplain
          obtain ⟨hlazy, hrest⟩ := foreign?_single hforeign
          refine .single hc hlazy hflags ⟨hrest, ?_⟩
          intro bracket hbracket
          exact hplain bracket (List.mem_cons_of_mem _ hbracket)

theorem escapeBrackets_nil : escapeBrackets [] = [] := by
  rw [escapeBrackets, pieces]
  rfl

/-- A single character that stands first in the escaped pattern stands first in the pattern. -/
theorem Gated.head?_eq {c : Char} (hgated : Gated afterRepetition cs) (hc : IsSingle c)
    (hhead : (escapeBrackets cs).head? = some c) : cs.head? = some c := by
  cases hgated.step with
  | nil =>
      rw [escapeBrackets_nil] at hhead
      cases hhead
  | escape _ _ =>
      rw [escapeBrackets_escape] at hhead
      exact absurd (Option.some.inj hhead).symm hc.1
  | bracket _ _ =>
      rw [escapeBrackets_bracket] at hhead
      exact absurd (Option.some.inj hhead).symm hc.2
  | single hd _ _ _ =>
      rw [escapeBrackets_single hd] at hhead
      exact hhead

theorem Gated.head?_ne (hgated : Gated true cs) : cs.head? ≠ some '?' := by
  intro hhead
  cases hgated.step with
  | nil => cases hhead
  | escape _ _ => cases hhead
  | bracket _ _ => cases hhead
  | single _ hlazy _ _ => cases hlazy (Option.some.inj hhead)

/-- A text that the reader gets to see at the beginning of a piece. -/
def Reached (text : List Char) : Prop :=
  ∃ afterRepetition cs, Gated afterRepetition cs ∧ text = escapeBrackets cs

theorem Gated.reached (hgated : Gated afterRepetition cs) : Reached (escapeBrackets cs) :=
  ⟨afterRepetition, cs, hgated, rfl⟩

/-- What the reader finds at the beginning of a piece. -/
inductive Reached.Step : List Char → Prop where
  | nil : Step []
  | escape {c : Char} {text : List Char} (hc : c ∉ Ere.perlEscapes) (hrest : Reached text) :
      Step ('\\' :: c :: text)
  | bracket {text : List Char} (hrest : ∀ fuel negated set rest,
      readBracket fuel text = some (negated, set, rest) → Reached rest) : Step ('[' :: text)
  | single {c : Char} {text : List Char} (hc : IsSingle c) (hrest : Reached text)
      (hnext : endsRepetition c ∨ c = '(' → text.head? ≠ some '?') : Step (c :: text)

theorem Reached.step {text : List Char} (htext : Reached text) : Reached.Step text := by
  obtain ⟨afterRepetition, cs, hgated, rfl⟩ := htext
  cases hgated.step with
  | nil =>
      rw [escapeBrackets_nil]
      exact .nil
  | escape hc hrest =>
      rw [escapeBrackets_escape]
      exact .escape hc hrest.reached
  | @bracket cs hplain hrest =>
      rw [escapeBrackets_bracket]
      refine .bracket fun fuel negated set rest hread => ?_
      have hscanned := Bracket.scan_scanned cs
      have hend := hscanned.readBracket_rest hplain
        (fun hbehind => by rw [hbehind, escapeBrackets_nil]) hread
      rw [hend]
      exact hrest.reached
  | @single c cs hc _ hflags hrest =>
      rw [escapeBrackets_single hc]
      refine .single hc hrest.reached ?_
      intro hnext hhead
      have hhead := hrest.head?_eq (by decide) hhead
      rcases hnext with hends | hopen
      · rw [hends] at hrest
        exact hrest.head?_ne hhead
      · exact hflags hopen hhead

theorem Reached.single {c : Char} {text : List Char} (htext : Reached (c :: text))
    (hc : IsSingle c) :
    Reached text ∧ (endsRepetition c ∨ c = '(' → text.head? ≠ some '?') := by
  generalize hcons : c :: text = cs at htext
  cases htext.step with
  | nil => cases hcons
  | escape _ _ => exact absurd (List.cons.inj hcons).1 hc.1
  | bracket _ => exact absurd (List.cons.inj hcons).1 hc.2
  | single _ hrest hnext =>
      obtain ⟨rfl, rfl⟩ := List.cons.inj hcons
      exact ⟨hrest, hnext⟩

theorem Reached.behind {text : List Char} (htext : Reached text) (hrest : Behind text rest) :
    Reached rest := by
  induction hrest with
  | here => exact htext
  | there hc _ ih => exact ih (htext.single hc).1

theorem Reached.bracket {text : List Char} {fuel : Nat} {negated : Bool} {set : ClassSet}
    (htext : Reached ('[' :: text)) (hread : readBracket fuel text = some (negated, set, rest)) :
    Reached rest := by
  generalize hcons : '[' :: text = cs at htext
  cases htext.step with
  | nil => cases hcons
  | escape _ _ => cases hcons
  | bracket hrest =>
      obtain rfl := (List.cons.inj hcons).2
      exact hrest fuel negated set rest hread
  | single hc _ _ => exact absurd (List.cons.inj hcons).1.symm hc.2

theorem Reached.escape {text : List Char} {part : Ast} (htext : Reached ('\\' :: text))
    (hread : readEscape text = some (part, rest)) : part.isPosix ∧ Reached rest := by
  generalize hcons : '\\' :: text = cs at htext
  cases htext.step with
  | nil => cases hcons
  | escape hc hrest =>
      obtain rfl := (List.cons.inj hcons).2
      obtain ⟨hposix, hbehind⟩ := readEscape_behind hc hread
      exact ⟨hposix, hrest.behind hbehind⟩
  | bracket _ => cases hcons
  | single hc _ _ => exact absurd (List.cons.inj hcons).1.symm hc.1

/-! ### Reading an accepted pattern -/

/-- A repetition is written in single characters, the last of which ends a repetition. -/
theorem readRepetition_behind {text : List Char} {range : Repetition}
    (hread : readRepetition text = some (range, rest)) :
    ∃ c, IsSingle c ∧ endsRepetition c ∧ Behind text (c :: rest) := by
  unfold readRepetition at hread
  split at hread
  · cases hread
    exact ⟨'*', by decide, by decide, .here _⟩
  · cases hread
    exact ⟨'+', by decide, by decide, .here _⟩
  · cases hread
    exact ⟨'?', by decide, by decide, .here _⟩
  · exact ⟨'\x7d', by decide, by decide, .there (by decide) (readBounds_behind hread)⟩
  · cases hread

/-- A repetition ends at the beginning of a piece, and no question mark follows. -/
theorem Reached.repetition {text : List Char} {range : Repetition}
    (htext : Reached text) (hread : readRepetition text = some (range, rest)) :
    Reached rest ∧ rest.head? ≠ some '?' := by
  obtain ⟨c, hc, hends, hbehind⟩ := readRepetition_behind hread
  obtain ⟨hrest, hnext⟩ := (htext.behind hbehind).single hc
  exact ⟨hrest, hnext (Or.inl hends)⟩

theorem allPosix_of_repeatLast {range : Repetition} {parts parts' : List Ast}
    (hparts : allPosix parts) (hrepeat : repeatLast range true parts = some parts') :
    allPosix parts' := by
  unfold repeatLast at hrepeat
  split at hrepeat
  · cases hrepeat
  · cases hrepeat
  · cases hrepeat
    obtain ⟨hlast, hrest⟩ := allPosix_cons.mp hparts
    exact allPosix_cons.mpr ⟨by simpa [Ast.isPosix] using hlast, hrest⟩

/-- Without a question mark behind it a parenthesis only groups. -/
theorem readGroupKind_of_head?_ne (hhead : cs.head? ≠ some '?') :
    readGroupKind cs = some (.capture, true, cs) := by
  unfold readGroupKind
  split
  case h_6 => rfl
  all_goals exact absurd rfl hhead

/-- What a character that is no backslash and no opening bracket can be read as by itself. -/
def IsReadAlone (c : Char) (part : Ast) : Prop :=
  part = .dot ∨ part = .startOfText ∨ part = .endOfText ∨ part = .literal c .verbatim

/-- How a text is read up to another one, in the order of the reader: behind some complete branches
and some parts of the current one, the tree that comes of it. -/
inductive Derives : (branches parts : List Ast) → List Char → Ast → List Char → Prop where
  | finished {branches parts : List Ast} {rest : List Char} :
      Derives branches parts rest (alternationOf (concatOf parts.reverse :: branches).reverse) rest
  | branch {branches parts : List Ast} {text rest : List Char} {ast : Ast}
      (hbranch : Derives (concatOf parts.reverse :: branches) [] text ast rest) :
      Derives branches parts ('|' :: text) ast rest
  | group {branches parts : List Ast} {text inner more rest : List Char} {kind : GroupKind}
      {body ast : Ast} (hkind : readGroupKind text = some (kind, true, inner))
      (hbody : Derives [] [] inner body (')' :: more))
      (hlater : Derives branches (.group kind body :: parts) more ast rest) :
      Derives branches parts ('(' :: text) ast rest
  | setFlags {branches parts : List Ast} {text more rest : List Char} {flags : String} {ast : Ast}
      (hkind : readGroupKind text = some (.flags flags, false, more))
      (hlater : Derives branches (.setFlags flags :: parts) more ast rest) :
      Derives branches parts ('(' :: text) ast rest
  | bracket {branches parts : List Ast} {text more rest : List Char} {fuel : Nat} {negated : Bool}
      {set : ClassSet} {ast : Ast} (hread : readBracket fuel text = some (negated, set, more))
      (hlater : Derives branches (.bracket negated set :: parts) more ast rest) :
      Derives branches parts ('[' :: text) ast rest
  | escape {branches parts : List Ast} {text more rest : List Char} {part ast : Ast}
      (hread : readEscape text = some (part, more))
      (hlater : Derives branches (part :: parts) more ast rest) :
      Derives branches parts ('\\' :: text) ast rest
  | single {branches parts : List Ast} {c : Char} {text rest : List Char} {part ast : Ast}
      (hc : IsSingle c) (hpart : IsReadAlone c part)
      (hlater : Derives branches (part :: parts) text ast rest) :
      Derives branches parts (c :: text) ast rest
  | repeated {branches parts repeated : List Ast} {text more rest : List Char} {range : Repetition}
      {ast : Ast} (hrange : readRepetition text = some (range, more))
      (hrepeat : repeatLast range true parts = some repeated)
      (hlater : Derives branches repeated more ast rest) : Derives branches parts text ast rest
  | lazily {branches parts repeated : List Ast} {text more rest : List Char} {range : Repetition}
      {ast : Ast} (hrange : readRepetition text = some (range, '?' :: more))
      (hrepeat : repeatLast range false parts = some repeated)
      (hlater : Derives branches repeated more ast rest) : Derives branches parts text ast rest

/-- The reader only finds what can be read in this way. -/
theorem derives_of_readParts {branches parts : List Ast} {fuel : Nat} {text : List Char} {ast : Ast}
    (hread : readParts branches parts fuel text = some (ast, rest)) :
    Derives branches parts text ast rest := by
  induction fuel generalizing branches parts text ast rest with
  | zero => simp [readParts] at hread
  | succ fuel ih =>
      -- In the reader's order: the end of the text or of a group, an alternative, a group, a bracket
      -- expression, an escape, the three characters that stand for a class or a place, and the rest.
      unfold readParts at hread
      split at hread
      · cases hread
        exact .finished
      · cases hread
        exact .finished
      · exact .branch (ih hread)
      · obtain ⟨⟨kind, hasBody, inner⟩, hkind, hread⟩ := Option.bind_eq_some_iff.mp hread
        cases hasBody with
        | true =>
            obtain ⟨⟨body, behind⟩, hbody, hread⟩ := Option.bind_eq_some_iff.mp hread
            dsimp only at hread
            split at hread
            · rename_i heq
              cases heq
              exact .group hkind (ih hbody) (ih hread)
            · cases hread
        | false =>
            cases kind with
            | flags flags => exact .setFlags hkind (ih hread)
            | _ => cases hread
      · obtain ⟨⟨negated, set, more⟩, hbracket, hread⟩ := Option.bind_eq_some_iff.mp hread
        exact .bracket hbracket (ih hread)
      · obtain ⟨⟨part, more⟩, hescape, hread⟩ := Option.bind_eq_some_iff.mp hread
        exact .escape hescape (ih hread)
      · exact .single (by decide) (Or.inl rfl) (ih hread)
      · exact .single (by decide) (Or.inr (Or.inl rfl)) (ih hread)
      · exact .single (by decide) (Or.inr (Or.inr (Or.inl rfl))) (ih hread)
      · rename_i c more _ _ _ hopen hescape _ _ _
        split at hread
        · obtain ⟨⟨range, more⟩, hrange, hread⟩ := Option.bind_eq_some_iff.mp hread
          dsimp only at hread
          split at hread
          · obtain ⟨repeated, hrepeat, hread⟩ := Option.bind_eq_some_iff.mp hread
            exact .lazily hrange hrepeat (ih hread)
          · obtain ⟨repeated, hrepeat, hread⟩ := Option.bind_eq_some_iff.mp hread
            exact .repeated hrange hrepeat (ih hread)
        · exact .single ⟨hescape, hopen⟩ (Or.inr (Or.inr (Or.inr rfl))) (ih hread)

theorem IsReadAlone.isPosix {c : Char} {part : Ast} (hpart : IsReadAlone c part) : part.isPosix := by
  rcases hpart with rfl | rfl | rfl | rfl <;> rfl

/-- Whatever way an accepted pattern is read, nothing foreign is found in it. -/
theorem Derives.posix {branches parts : List Ast} {text : List Char} {ast : Ast}
    (hderives : Derives branches parts text ast rest) (htext : Reached text)
    (hbranches : allPosix branches) (hparts : allPosix parts) : ast.isPosix ∧ Reached rest := by
  induction hderives with
  | finished =>
      have hbranch := isPosix_concatOf (allPosix_reverse.mpr hparts)
      have hall := allPosix_reverse.mpr (allPosix_cons.mpr ⟨hbranch, hbranches⟩)
      exact ⟨isPosix_alternationOf hall, htext⟩
  | branch _ ih =>
      have hbranch := isPosix_concatOf (allPosix_reverse.mpr hparts)
      exact ih (htext.single (by decide)).1 (allPosix_cons.mpr ⟨hbranch, hbranches⟩) rfl
  | group hkind _ _ ihbody ihlater =>
      obtain ⟨hinner, hnext⟩ := htext.single (by decide)
      rw [readGroupKind_of_head?_ne (hnext (by decide))] at hkind
      cases hkind
      obtain ⟨hposix, hmore⟩ := ihbody hinner rfl rfl
      refine ihlater (hmore.single (by decide)).1 hbranches (allPosix_cons.mpr ⟨?_, hparts⟩)
      simpa [Ast.isPosix] using hposix
  | setFlags hkind _ _ =>
      obtain ⟨-, hnext⟩ := htext.single (by decide)
      rw [readGroupKind_of_head?_ne (hnext (by decide))] at hkind
      cases hkind
  | bracket hread _ ih => exact ih (htext.bracket hread) hbranches (allPosix_cons.mpr ⟨rfl, hparts⟩)
  | escape hread _ ih =>
      obtain ⟨hposix, hmore⟩ := htext.escape hread
      exact ih hmore hbranches (allPosix_cons.mpr ⟨hposix, hparts⟩)
  | single hc hpart _ ih =>
      exact ih (htext.single hc).1 hbranches (allPosix_cons.mpr ⟨hpart.isPosix, hparts⟩)
  | repeated hrange hrepeat _ ih =>
      exact ih (htext.repetition hrange).1 hbranches (allPosix_of_repeatLast hparts hrepeat)
  | lazily hrange _ _ _ => exact absurd rfl (htext.repetition hrange).2

end LogForwarding.Pattern

namespace LogForwarding

open Pattern

/-- An accepted pattern has passed the search and comes out escaped and readable. -/
theorem Ere.exists_of_compile {pattern text : String} (hcompile : compile pattern = .ok text) :
    foreign? false (pieces pattern.toList) = none ∧ text.toList = escapeBrackets pattern.toList ∧
      ∃ ast, Ast.read? (escapeBrackets pattern.toList) = some ast := by
  unfold compile check at hcompile
  dsimp only at hcompile
  cases hforeign : foreign? false (pieces pattern.toList) with
  | some error =>
      rw [hforeign] at hcompile
      cases hcompile
  | none =>
      rw [hforeign] at hcompile
      cases hread : Ast.read? (escapeBrackets pattern.toList) with
      | none =>
          rw [hread] at hcompile
          cases hcompile
      | some ast =>
          rw [hread] at hcompile
          refine ⟨rfl, ?_, ast, rfl⟩
          by_cases hcompilable : ast.isCompilable
          · simp only [hcompilable] at hcompile
            cases hcompile
            exact String.toList_ofList
          · simp only [hcompilable] at hcompile
            cases hcompile

theorem Ere.compile_of_toOption {pattern text : String}
    (hsome : (compile pattern).toOption = some text) : compile pattern = .ok text := by
  cases hcompile : compile pattern with
  | error error =>
      rw [hcompile] at hsome
      cases hsome
  | ok found =>
      rw [hcompile] at hsome
      exact congrArg Except.ok (Option.some.inj hsome)

/-- Every accepted pattern is handed on in a form that can be read, and the reader finds none of
the constructs that other dialects have beyond POSIX in it, outside of bracket expressions, as long
as no bracket expression is read beyond its end. -/
theorem Ere.isPosix_of_compile {pattern text : String} (hcompile : compile pattern = .ok text)
    (hplain : ∀ bracket, Piece.bracket bracket ∈ pieces pattern.toList → bracket.isPlain) :
    ∃ ast, Ast.read? text.toList = some ast ∧ ast.isPosix := by
  obtain ⟨hforeign, htext, ast, hread⟩ := exists_of_compile hcompile
  have hreached := Gated.reached ⟨hforeign, hplain⟩
  rw [htext]
  refine ⟨ast, hread, ?_⟩
  unfold Ast.read? at hread
  split at hread
  · rename_i hparts
    split at hread
    · cases hread
      exact ((derives_of_readParts hparts).posix hreached rfl rfl).1
    · cases hread
  · cases hread

/-- A pattern with classes, escapes, a group and a counted repetition. -/
theorem Ere.sample_isPosix :
    compile "^[[:digit:]]+[^]](foo|\\.bar[\\])\x7b1,2\x7d$" =
        .ok "^[[:digit:]]+[^\\]](foo|\\.bar[\\\\])\x7b1,2\x7d$" ∧
      ∃ ast, Ast.read? "^[[:digit:]]+[^\\]](foo|\\.bar[\\\\])\x7b1,2\x7d$".toList = some ast ∧
        ast.isPosix := by
  have htext : (compile "^[[:digit:]]+[^]](foo|\\.bar[\\])\x7b1,2\x7d$").toOption =
      some "^[[:digit:]]+[^\\]](foo|\\.bar[\\\\])\x7b1,2\x7d$" := by decide +kernel
  have hcompile : compile "^[[:digit:]]+[^]](foo|\\.bar[\\])\x7b1,2\x7d$" =
      .ok "^[[:digit:]]+[^\\]](foo|\\.bar[\\\\])\x7b1,2\x7d$" := compile_of_toOption htext
  have hplain : (pieces "^[[:digit:]]+[^]](foo|\\.bar[\\])\x7b1,2\x7d$".toList).all fun piece =>
      piece.casesOn (fun _ => true) true Bracket.isPlain fun _ => true := by decide +kernel
  exact ⟨hcompile, isPosix_of_compile hcompile fun bracket hbracket =>
    List.all_eq_true.mp hplain _ hbracket⟩

/-- The name of the class is taken to reach to the end of the pattern, but the set that is read in
its place ends before the letter class. -/
example : ((Ere.compile "[[:]]\\d").toOption.bind fun text =>
    (Ast.read? text.toList).map Ast.isPosix) = some false := by decide +kernel

end LogForwarding
