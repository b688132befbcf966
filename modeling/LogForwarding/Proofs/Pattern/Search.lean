import LogForwarding.Proofs.Pattern.Gate

/-!
What the search of a pattern finds.  A pattern is read as escapes, bracket expressions and single
characters, and the first construct that POSIX does not have is told.  A question mark is such a
construct when it stands behind a repetition.  The search takes every closing brace for the end of
one, also a brace that closes no interval, so it may refuse a question mark that belongs to a brace.
-/

namespace LogForwarding

namespace Pattern

/-- Scanning a bracket expression loses no character. -/
theorem Bracket.text_scan (cs : List Char) : (scan cs).1.text ++ (scan cs).2 = '[' :: cs := by
  have hitems := text_scanItems [] none (takeHead ']' (takeHead '^' cs).2).2
  simp only [List.reverse_nil, List.flatMap_nil, List.nil_append, Option.elim] at hitems
  unfold scan text
  simp only [List.cons_append, List.append_assoc]
  rw [hitems, takeHead_append, takeHead_append]

/-- The pieces of a pattern are the pattern. -/
theorem text_pieces (cs : List Char) : (pieces cs).flatMap Piece.text = cs := by
  fun_induction pieces cs with
  | case1 => rfl
  | case2 => rfl
  | case3 c rest ih => rw [List.flatMap_cons, ih, Piece.text, List.cons_append, List.singleton_append]
  | case4 rest ih => rw [List.flatMap_cons, ih, Piece.text, Bracket.text_scan]
  | case5 c rest _ _ _ ih => rw [List.flatMap_cons, ih, Piece.text, List.singleton_append]

/-- A number in decimal digits. -/
def IsNumeral (digits : List Char) : Prop :=
  digits ≠ [] ∧ ∀ d ∈ digits, d.isDigit

/-- An interval: the bounds of a repetition in braces. -/
inductive IsInterval : List Char → Prop where
  | exactly {n : List Char} (hn : IsNumeral n) : IsInterval ('\x7b' :: (n ++ ['\x7d']))
  | atLeast {n : List Char} (hn : IsNumeral n) : IsInterval ('\x7b' :: (n ++ [',', '\x7d']))
  | between {n m : List Char} (hn : IsNumeral n) (hm : IsNumeral m) :
      IsInterval ('\x7b' :: (n ++ ',' :: (m ++ ['\x7d'])))

theorem IsInterval.exists_eq_append {text : List Char} (htext : IsInterval text) :
    ∃ bounds, text = bounds ++ ['\x7d'] := by
  cases htext with
  | @exactly n _ => exact ⟨'\x7b' :: n, rfl⟩
  | @atLeast n _ => exact ⟨'\x7b' :: (n ++ [',']), by simp⟩
  | @between n m _ _ => exact ⟨'\x7b' :: (n ++ ',' :: m), by simp⟩

/-- A repetition operator stands last: one of its three characters, or a complete interval. -/
def EndsInRepetition (before : List Piece) : Prop :=
  (∃ c ∈ ['*', '+', '?'], [Piece.single c] <:+ before) ∨
    ∃ text, IsInterval text ∧ text.map Piece.single <:+ before

/-- A repetition operator stands last, or a closing brace of whatever kind. -/
def EndsInRepetitionOrBrace (before : List Piece) : Prop :=
  EndsInRepetition before ∨ [Piece.single '\x7d'] <:+ before

theorem endsInRepetitionOrBrace_iff {before : List Piece} :
    EndsInRepetitionOrBrace before ↔
      ∃ c, endsRepetition c ∧ [Piece.single c] <:+ before := by
  constructor
  · rintro ((⟨c, hc, hlast⟩ | ⟨text, htext, hlast⟩) | hlast)
    · refine ⟨c, ?_, hlast⟩
      have hchars : c = '*' ∨ c = '+' ∨ c = '?' := by simpa using hc
      rcases hchars with rfl | rfl | rfl <;> rfl
    · obtain ⟨bounds, rfl⟩ := htext.exists_eq_append
      rw [List.map_append] at hlast
      exact ⟨'\x7d', rfl, (List.suffix_append _ _).trans hlast⟩
    · exact ⟨'\x7d', rfl, hlast⟩
  · rintro ⟨c, hc, hlast⟩
    have hchars : c = '*' ∨ c = '+' ∨ c = '?' ∨ c = '\x7d' := of_decide_eq_true hc
    rcases hchars with rfl | rfl | rfl | rfl
    · exact Or.inl (Or.inl ⟨'*', by simp, hlast⟩)
    · exact Or.inl (Or.inl ⟨'+', by simp, hlast⟩)
    · exact Or.inl (Or.inl ⟨'?', by simp, hlast⟩)
    · exact Or.inr hlast

/-- Only the last piece tells whether the next one stands behind a repetition. -/
theorem endsInRepetitionOrBrace_append {before : List Piece} {piece : Piece} :
    EndsInRepetitionOrBrace (before ++ [piece]) ↔ ∃ c, endsRepetition c ∧ piece = .single c := by
  rw [endsInRepetitionOrBrace_iff]
  have hlast (c : Char) : [Piece.single c] <:+ before ++ [piece] ↔ piece = .single c := by
    constructor
    · rintro ⟨seen, heq⟩
      exact (List.cons.inj (List.append_inj_right' heq rfl)).1.symm
    · rintro rfl
      exact List.suffix_append _ _
  simp only [hlast]

end Pattern

namespace Ere

open Pattern

/-- What POSIX does not have, at the beginning of the later pieces.  `ends` says behind which pieces a
question mark is no operator of its own. -/
inductive Problem (ends : List Piece → Prop) (before : List Piece) :
    List Piece → EreError → Prop where
  | escape {c : Char} {rest : List Piece} (hc : c ∈ perlEscapes) :
      Problem ends before (.escape c :: rest) (.perlEscape c)
  | backslash {rest : List Piece} : Problem ends before (.loneBackslash :: rest) .trailingBackslash
  | flags {rest : List Piece} :
      Problem ends before (.single '(' :: .single '?' :: rest) .groupFlags
  | lazy {rest : List Piece} (hends : ends before) :
      Problem ends before (.single '?' :: rest) .nonGreedy

section Step

variable {ends : List Piece → Prop} {before rest : List Piece} {error : EreError}

theorem problem_escape {c : Char} :
    Problem ends before (.escape c :: rest) error ↔ c ∈ perlEscapes ∧ error = .perlEscape c := by
  constructor
  · rintro ⟨hc⟩
    exact ⟨hc, rfl⟩
  · rintro ⟨hc, rfl⟩
    exact .escape hc

theorem problem_single {c : Char} :
    Problem ends before (.single c :: rest) error ↔
      (c = '(' ∧ (∃ more, rest = .single '?' :: more) ∧ error = .groupFlags) ∨
        (c = '?' ∧ ends before ∧ error = .nonGreedy) := by
  constructor
  · intro hproblem
    cases hproblem with
    | flags => exact Or.inl ⟨rfl, ⟨_, rfl⟩, rfl⟩
    | lazy hends => exact Or.inr ⟨rfl, hends, rfl⟩
  · rintro (⟨rfl, ⟨more, rfl⟩, rfl⟩ | ⟨rfl, hends, rfl⟩)
    · exact .flags
    · exact .lazy hends

/-- At one place there is one problem at most. -/
theorem Problem.unique {other : EreError} (hproblem : Problem ends before rest error)
    (hother : Problem ends before rest other) : error = other := by
  cases hproblem with
  | escape _ => exact (problem_escape.mp hother).2.symm
  | backslash =>
      cases hother
      rfl
  | flags =>
      cases hother
      rfl
  | lazy _ =>
      cases hother
      rfl

/-- Whether what follows a piece stands behind a repetition, as the search has it. -/
def endsAfter : Piece → Bool
  | .single c => endsRepetition c
  | _ => false

/-- The search tells of the problem where it stands, or there is none and it goes on behind the
piece. -/
theorem foreign?_step {afterRepetition : Bool} (hends : afterRepetition = true ↔ ends before)
    (piece : Piece) (rest : List Piece) :
    (∃ found, Problem ends before (piece :: rest) found ∧
        foreign? afterRepetition (piece :: rest) = some found) ∨
      (∀ other, ¬ Problem ends before (piece :: rest) other) ∧
        foreign? afterRepetition (piece :: rest) = foreign? (endsAfter piece) rest := by
  cases piece with
  | loneBackslash => exact Or.inl ⟨_, .backslash, by rw [foreign?]⟩
  | bracket bracket =>
      refine Or.inr ⟨?_, by simp [foreign?, endsAfter]⟩
      intro other hproblem
      cases hproblem
  | escape c =>
      rw [foreign?]
      by_cases hc : c ∈ perlEscapes
      · exact Or.inl ⟨_, .escape hc, if_pos hc⟩
      · exact Or.inr ⟨fun other hproblem => hc (problem_escape.mp hproblem).1, if_neg hc⟩
  | single c =>
      by_cases hflags : c = '(' ∧ ∃ more, rest = .single '?' :: more
      · obtain ⟨rfl, more, rfl⟩ := hflags
        exact Or.inl ⟨_, .flags, by rw [foreign?]⟩
      · have hstep : foreign? afterRepetition (.single c :: rest) =
            if c = '?' ∧ afterRepetition then some .nonGreedy
            else foreign? (endsRepetition c) rest := by
          rw [foreign?]
          · rfl
          · rintro more rfl rfl
            exact hflags ⟨rfl, more, rfl⟩
        rw [hstep]
        by_cases hlazy : c = '?' ∧ afterRepetition
        · obtain ⟨rfl, hafter⟩ := hlazy
          exact Or.inl ⟨_, .lazy (hends.mp hafter), if_pos ⟨rfl, hafter⟩⟩
        · refine Or.inr ⟨fun other hproblem => ?_, if_neg hlazy⟩
          rcases problem_single.mp hproblem with ⟨hc, hmore, -⟩ | ⟨hc, hafter, -⟩
          · exact hflags ⟨hc, hmore⟩
          · exact hlazy ⟨hc, hends.mpr hafter⟩

end Step

/-- A first position is the first one of all, or one behind it. -/
theorem exists_first_iff {here found : Nat → Prop} :
    (∃ i, here i ∧ ∀ j < i, ¬ found j) ↔
      here 0 ∨ ¬ found 0 ∧ ∃ i, here (i + 1) ∧ ∀ j < i, ¬ found (j + 1) := by
  constructor
  · rintro ⟨i, hhere, hnone⟩
    cases i with
    | zero => exact Or.inl hhere
    | succ i =>
        refine Or.inr ⟨hnone 0 (Nat.succ_pos i), i, hhere, ?_⟩
        exact fun j hj => hnone (j + 1) (Nat.succ_lt_succ hj)
  · rintro (hhere | ⟨hfirst, i, hhere, hnone⟩)
    · exact ⟨0, hhere, fun j hj => absurd hj (Nat.not_lt_zero j)⟩
    · refine ⟨i + 1, hhere, fun j hj => ?_⟩
      cases j with
      | zero => exact hfirst
      | succ j => exact hnone j (Nat.lt_of_succ_lt_succ hj)

/-- The search of the later pieces finds the leftmost problem among them.  The induction is on the
later pieces; those before them only matter by what stands last. -/
theorem foreign?_eq_some_iff {afterRepetition : Bool} {before : List Piece}
    (hends : afterRepetition = true ↔ EndsInRepetitionOrBrace before) (rest : List Piece)
    (error : EreError) :
    foreign? afterRepetition rest = some error ↔
      ∃ i, Problem EndsInRepetitionOrBrace (before ++ rest.take i) (rest.drop i) error ∧
        ∀ j < i, ¬ ∃ other,
          Problem EndsInRepetitionOrBrace (before ++ rest.take j) (rest.drop j) other := by
  induction rest generalizing afterRepetition before with
  | nil =>
      simp only [foreign?, List.drop_nil]
      constructor
      · intro heq
        cases heq
      · rintro ⟨i, hproblem, -⟩
        cases hproblem
  | cons piece rest ih =>
      have hnext : endsAfter piece = true ↔ EndsInRepetitionOrBrace (before ++ [piece]) := by
        rw [endsInRepetitionOrBrace_append]
        cases piece <;> simp [endsAfter]
      have hrest := ih hnext
      rw [exists_first_iff]
      simp only [List.take_succ_cons, List.drop_succ_cons, List.take_zero, List.drop_zero,
        List.append_nil]
      simp only [List.append_assoc, List.singleton_append] at hrest
      rw [← hrest]
      rcases foreign?_step hends piece rest with ⟨found, hfound, hforeign⟩ | ⟨hnone, hforeign⟩
      · rw [hforeign]
        constructor
        · intro heq
          cases heq
          exact Or.inl hfound
        · rintro (hproblem | ⟨hnone, -⟩)
          · rw [hfound.unique hproblem]
          · exact absurd ⟨found, hfound⟩ hnone
      · rw [hforeign]
        constructor
        · intro hlater
          exact Or.inr ⟨not_exists.mpr hnone, hlater⟩
        · rintro (hproblem | ⟨-, hlater⟩)
          · exact absurd hproblem (hnone error)
          · exact hlater

section Places

/-- A problem with the pieces from a place on. -/
def ProblemAt (ends : List Piece → Prop) (ps : List Piece) (i : Nat) (error : EreError) : Prop :=
  Problem ends (ps.take i) (ps.drop i) error

/-- A problem before which there is none. -/
def LeftmostAt (ends : List Piece → Prop) (ps : List Piece) (i : Nat) (error : EreError) : Prop :=
  ProblemAt ends ps i error ∧ ∀ j < i, ¬ ∃ other, ProblemAt ends ps j other

/-- The search passes a pattern without problems, and of those of another pattern it tells the
leftmost. -/
def FindsLeftmost (ends : List Piece → Prop) (pattern : List Char) : Prop :=
  (check pattern = .ok () ↔ ∀ i error, ¬ ProblemAt ends (pieces pattern) i error) ∧
    ∀ error, check pattern = .error error ↔ ∃ i, LeftmostAt ends (pieces pattern) i error

/-- A question mark that stands behind a brace which closes no interval. -/
def StrayAt (ps : List Piece) (i : Nat) : Prop :=
  (∃ rest, ps.drop i = .single '?' :: rest) ∧ [Piece.single '\x7d'] <:+ ps.take i ∧
    ¬ EndsInRepetition (ps.take i)

variable {ends : List Piece → Prop} {ps : List Piece} {i : Nat} {error : EreError}

theorem exists_leftmostAt (hproblem : ProblemAt ends ps i error) :
    ∃ j ≤ i, ∃ other, LeftmostAt ends ps j other := by
  induction i using Nat.strongRecOn generalizing error with
  | ind i ih =>
      by_cases hearlier : ∃ j < i, ∃ other, ProblemAt ends ps j other
      · obtain ⟨j, hj, other, hother⟩ := hearlier
        obtain ⟨first, hfirst, found, hfound⟩ := ih j hj hother
        exact ⟨first, Nat.le_trans hfirst (Nat.le_of_lt hj), found, hfound⟩
      · exact ⟨i, Nat.le_refl i, error, hproblem, fun j hj hother => hearlier ⟨j, hj, hother⟩⟩

theorem LeftmostAt.unique {j : Nat} {other : EreError} (hfirst : LeftmostAt ends ps i error)
    (hother : LeftmostAt ends ps j other) : i = j ∧ error = other := by
  have hle : ∀ {i j : Nat} {error other : EreError}, LeftmostAt ends ps i error →
      LeftmostAt ends ps j other → i ≤ j := by
    intro i j error other hi hj
    exact Nat.le_of_not_lt fun hlt => hi.2 j hlt ⟨other, hj.1⟩
  obtain rfl := Nat.le_antisymm (hle hfirst hother) (hle hother hfirst)
  exact ⟨rfl, hfirst.1.unique hother.1⟩

/-- With every brace counted there is a problem more where a question mark stands behind a stray
one. -/
theorem problemAt_orBrace_iff :
    ProblemAt EndsInRepetitionOrBrace ps i error ↔
      ProblemAt EndsInRepetition ps i error ∨ error = .nonGreedy ∧ StrayAt ps i := by
  unfold ProblemAt StrayAt
  generalize ps.take i = before
  generalize ps.drop i = rest
  constructor
  · intro hproblem
    cases hproblem with
    | escape hc => exact Or.inl (.escape hc)
    | backslash => exact Or.inl .backslash
    | flags => exact Or.inl .flags
    | lazy hends =>
        by_cases hrepetition : EndsInRepetition before
        · exact Or.inl (.lazy hrepetition)
        · exact Or.inr ⟨rfl, ⟨_, rfl⟩, hends.resolve_left hrepetition, hrepetition⟩
  · rintro (hproblem | ⟨rfl, ⟨rest, rfl⟩, hbrace, -⟩)
    · cases hproblem with
      | escape hc => exact .escape hc
      | backslash => exact .backslash
      | flags => exact .flags
      | lazy hends => exact .lazy (Or.inl hends)
    · exact .lazy (Or.inr hbrace)

theorem not_endsInRepetitionOrBrace_nil : ¬ EndsInRepetitionOrBrace [] := by
  rw [endsInRepetitionOrBrace_iff]
  rintro ⟨c, -, hlast⟩
  cases List.suffix_nil.mp hlast

theorem check_eq_error_iff {pattern : List Char} :
    check pattern = .error error ↔
      ∃ i, LeftmostAt EndsInRepetitionOrBrace (pieces pattern) i error := by
  have hstart : (false = true) ↔ EndsInRepetitionOrBrace [] :=
    iff_of_false Bool.false_ne_true not_endsInRepetitionOrBrace_nil
  have hsearch := foreign?_eq_some_iff hstart (pieces pattern) error
  simp only [List.nil_append] at hsearch
  unfold LeftmostAt ProblemAt
  rw [← hsearch, check]
  cases foreign? false (pieces pattern) with
  | none => simp
  | some found => simp

theorem findsLeftmost_orBrace (pattern : List Char) :
    FindsLeftmost EndsInRepetitionOrBrace pattern := by
  refine ⟨?_, fun error => check_eq_error_iff⟩
  constructor
  · intro hok i error hproblem
    obtain ⟨j, -, other, hother⟩ := exists_leftmostAt hproblem
    rw [check_eq_error_iff.mpr ⟨j, hother⟩] at hok
    cases hok
  · intro hnone
    cases hcheck : check pattern with
    | ok done => rfl
    | error error =>
        obtain ⟨i, hi⟩ := check_eq_error_iff.mp hcheck
        exact absurd hi.1 (hnone i error)

/-- What is a problem with a stray brace left out is none with complete operators only. -/
theorem StrayAt.not_problemAt (hstray : StrayAt ps i) : ¬ ProblemAt EndsInRepetition ps i error := by
  obtain ⟨⟨rest, hrest⟩, -, hends⟩ := hstray
  unfold ProblemAt
  rw [hrest, problem_single]
  rintro (⟨hparenthesis, -⟩ | ⟨-, hrepetition, -⟩)
  · exact absurd hparenthesis (by decide)
  · exact hends hrepetition

/-- A question mark behind a stray brace, with no problem up to it. -/
def MeetsStray (ps : List Piece) : Prop :=
  ∃ i, StrayAt ps i ∧ ∀ j ≤ i, ∀ other, ¬ ProblemAt EndsInRepetition ps j other

theorem MeetsStray.exists_leftmostAt (hmeets : MeetsStray ps) :
    ∃ i, LeftmostAt EndsInRepetitionOrBrace ps i .nonGreedy := by
  obtain ⟨i, hstray, hclear⟩ := hmeets
  have hproblem := problemAt_orBrace_iff.mpr (Or.inr ⟨rfl, hstray⟩)
  obtain ⟨j, hj, other, hother⟩ := Ere.exists_leftmostAt hproblem
  rcases problemAt_orBrace_iff.mp hother.1 with hearlier | ⟨rfl, -⟩
  · exact absurd hearlier (hclear j hj other)
  · exact ⟨j, hother⟩

/-- If something is wrong in front of every stray brace that matters, the leftmost problem is the
same whether all braces count or only those of intervals. -/
theorem leftmostAt_orBrace_iff (hclear : ¬ MeetsStray ps) :
    LeftmostAt EndsInRepetitionOrBrace ps i error ↔ LeftmostAt EndsInRepetition ps i error := by
  have hforward {i : Nat} {error : EreError}
      (hfirst : LeftmostAt EndsInRepetitionOrBrace ps i error) :
      LeftmostAt EndsInRepetition ps i error := by
    have hminimal : ∀ j < i, ¬ ∃ other, ProblemAt EndsInRepetition ps j other := by
      rintro j hj ⟨other, hother⟩
      exact hfirst.2 j hj ⟨other, problemAt_orBrace_iff.mpr (Or.inl hother)⟩
    rcases problemAt_orBrace_iff.mp hfirst.1 with hproblem | ⟨-, hstray⟩
    · exact ⟨hproblem, hminimal⟩
    · refine absurd ⟨i, hstray, fun j hj other hother => ?_⟩ hclear
      rcases Nat.lt_or_eq_of_le hj with hlt | rfl
      · exact hminimal j hlt ⟨other, hother⟩
      · exact hstray.not_problemAt hother
  constructor
  · exact hforward
  · intro hfirst
    refine ⟨problemAt_orBrace_iff.mpr (Or.inl hfirst.1), ?_⟩
    rintro j hj ⟨other, hother⟩
    obtain ⟨k, hk, found, hfound⟩ := exists_leftmostAt hother
    obtain ⟨rfl, -⟩ := (hforward hfound).unique hfirst
    exact absurd hj (Nat.not_lt_of_le hk)

theorem findsLeftmost_of_not_meetsStray {pattern : List Char}
    (hclear : ¬ MeetsStray (pieces pattern)) : FindsLeftmost EndsInRepetition pattern := by
  obtain ⟨hok, herror⟩ := findsLeftmost_orBrace pattern
  simp only [leftmostAt_orBrace_iff hclear] at herror
  refine ⟨hok.trans ?_, herror⟩
  constructor
  · intro hnone i error hproblem
    exact hnone i error (problemAt_orBrace_iff.mpr (Or.inl hproblem))
  · intro hnone i error hproblem
    obtain ⟨j, -, other, hother⟩ := exists_leftmostAt hproblem
    exact hnone j other ((leftmostAt_orBrace_iff hclear).mp hother).1

/-- Both readings agree on a pattern with a stray brace only if they tell the same by chance. -/
theorem findsLeftmost_iff_of_meetsStray {pattern : List Char}
    (hmeets : MeetsStray (pieces pattern)) :
    FindsLeftmost EndsInRepetition pattern ↔
      ∃ i, LeftmostAt EndsInRepetition (pieces pattern) i .nonGreedy := by
  have hcheck : check pattern = .error .nonGreedy :=
    check_eq_error_iff.mpr hmeets.exists_leftmostAt
  constructor
  · intro hfinds
    exact (hfinds.2 .nonGreedy).mp hcheck
  · rintro ⟨i, hi⟩
    rw [FindsLeftmost, hcheck]
    constructor
    · refine iff_of_false ?_ fun hnone => hnone i .nonGreedy hi.1
      intro heq
      cases heq
    · intro error
      constructor
      · intro heq
        cases heq
        exact ⟨i, hi⟩
      · rintro ⟨j, hj⟩
        rw [(hi.unique hj).2]

end Places

/-- The pieces of a pattern lose nothing of it, and the search of them finds the leftmost construct
that POSIX does not have, where every closing brace counts as the end of a repetition.  With only
complete operators counted it finds the leftmost one just if no question mark stands behind a stray
brace in front of all problems, or else the leftmost problem is a lazy repetition as well. -/
theorem findsLeftmost_iff (pattern : List Char) :
    (pieces pattern).flatMap Piece.text = pattern ∧
      FindsLeftmost EndsInRepetitionOrBrace pattern ∧
      (FindsLeftmost EndsInRepetition pattern ↔
        (MeetsStray (pieces pattern) →
          ∃ i, LeftmostAt EndsInRepetition (pieces pattern) i .nonGreedy)) := by
  refine ⟨text_pieces pattern, findsLeftmost_orBrace pattern, ?_⟩
  by_cases hmeets : MeetsStray (pieces pattern)
  · rw [findsLeftmost_iff_of_meetsStray hmeets]
    exact ⟨fun hlazy _ => hlazy, fun hlazy => hlazy hmeets⟩
  · exact iff_of_true (findsLeftmost_of_not_meetsStray hmeets) fun habsurd => absurd habsurd hmeets

/-- The brace ends no interval, and still the question mark is refused. -/
example : foreign? false (pieces ['a', '\x7d', '?']) = some .nonGreedy := by decide +kernel

end Ere

end LogForwarding
