import LogForwarding.Proofs.Pattern.Cursor
import LogForwarding.Proofs.Pattern.Search

/-!
Whole patterns read by place.  The search of a pattern and its escaping are two loops.  Both end,
and neither reads at a place where nothing stands.  They find what reading the pattern piece by
piece finds: escaping cuts the pattern into its pieces, the search cuts it at the same places as far
as it gets, and the escaped pattern is the pattern with backslashes put in front of members of
bracket expressions.
-/

namespace LogForwarding

namespace Pattern

/-! ### Loops over a text -/

/-- A loop whose state holds a place: the places of a text of the given length that it comes to, in
order, and what it ends with.  One turn more than there are characters left is enough for it. -/
def Visits {σ ρ : Type} (turn : Nat × σ → Option ((Nat × σ) ⊕ ρ)) (length : Nat) (state : Nat × σ)
    (places : List Nat) (result : ρ) : Prop :=
  ∀ turns, length - state.1 < turns → ∃ states,
    runLoop turn turns state = some (states, result) ∧
    (states.map Prod.fst).filter (· < length) = places

section Visits

variable {σ ρ : Type} {turn : Nat × σ → Option ((Nat × σ) ⊕ ρ)} {length place : Nat} {seen : σ}
  {later : Nat × σ} {places : List Nat} {result : ρ}

theorem Visits.next (hplace : place < length) (hlater : place < later.1)
    (hturn : turn (place, seen) = some (.inl later))
    (hvisits : Visits turn length later places result) :
    Visits turn length (place, seen) (place :: places) result := by
  intro turns hturns
  obtain ⟨turns, rfl⟩ := Nat.exists_eq_add_one_of_ne_zero (Nat.ne_zero_of_lt hturns)
  obtain ⟨states, hrun, rfl⟩ := hvisits turns (by omega)
  exact ⟨_, runLoop_next hturn hrun, by simp [hplace]⟩

theorem Visits.stop (hplace : place < length) (hturn : turn (place, seen) = some (.inr result)) :
    Visits turn length (place, seen) [place] result :=
  fun _ hturns => ⟨_, runLoop_done hturn hturns, by simp [hplace]⟩

theorem Visits.leave (hplace : length ≤ place) (hturn : turn (place, seen) = some (.inr result)) :
    Visits turn length (place, seen) [] result :=
  fun _ hturns => ⟨_, runLoop_done hturn hturns, by simp [hplace]⟩

end Visits

/-- One turn of escaping a pattern. -/
def escapeTurn (cs : List Char) : Nat × List Char → Option ((Nat × List Char) ⊕ List Char)
  | (i, out) =>
      if i < cs.length then do
        let c ← cs[i]?
        if c = '\\' then return .inl (i + 2, out ++ (← slice? cs i (min cs.length (i + 2))))
        else if c = '[' then
          let last ← bracketEnd? cs i
          let bracket ← slice? cs i last
          return .inl (last, ← escapeBracket? bracket out)
        else return .inl (i + 1, out ++ [c])
      else return .inr out

/-- One turn of searching a pattern for what POSIX does not have. -/
def searchTurn (cs : List Char) : Nat × Bool → Option ((Nat × Bool) ⊕ Except EreError Unit)
  | (i, afterRepetition) =>
      if i < cs.length then do
        let c ← cs[i]?
        if c = '\\' then
          match cs[i + 1]? with
          | none => return .inr (.error .trailingBackslash)
          | some escaped =>
              if escaped ∈ Ere.perlEscapes then return .inr (.error (.perlEscape escaped))
              else return .inl (i + 2, false)
        else if c = '[' then return .inl (← bracketEnd? cs i, false)
        else if c = '(' ∧ cs[i + 1]? = some '?' then return .inr (.error .groupFlags)
        else if c = '?' ∧ afterRepetition then return .inr (.error .nonGreedy)
        else return .inl (i + 1, endsRepetition c)
      else return .inr (.ok ())

/-! ### From piece to piece -/

variable {before cs rest : List Char} {c : Char}

/-- The places where pieces begin, the first of them at the given place. -/
def starts (place : Nat) : List Piece → List Nat
  | [] => []
  | piece :: rest => place :: starts (place + piece.text.length) rest

theorem starts_cons (before : List Char) (piece : Piece) (rest : List Piece) :
    starts before.length (piece :: rest) =
      before.length :: starts (before ++ piece.text).length rest := by
  rw [starts, List.length_append]

/-- A loop that has come to the end of one text and goes through the text behind it. -/
def VisitsFrom {σ ρ : Type} (turn : List Char → Nat × σ → Option ((Nat × σ) ⊕ ρ))
    (before cs : List Char) (seen : σ) (places : List Nat) (result : ρ) : Prop :=
  Visits (turn (before ++ cs)) (before ++ cs).length (before.length, seen) places result

theorem Piece.text_ne_nil (piece : Piece) : piece.text ≠ [] := by
  cases piece <;> exact List.cons_ne_nil _ _

/-- A turn goes to the end of a piece, and the loop goes on from there. -/
theorem VisitsFrom.piece {σ ρ : Type} {turn : List Char → Nat × σ → Option ((Nat × σ) ⊕ ρ)}
    {before cs rest : List Char} {seen later : σ} {places : List Nat} {result : ρ} (piece : Piece)
    (hcs : piece.text ++ rest = cs)
    (hturn : turn (before ++ cs) (before.length, seen) =
      some (.inl (before.length + piece.text.length, later)))
    (hrest : VisitsFrom turn (before ++ piece.text) rest later places result) :
    VisitsFrom turn before cs seen (before.length :: places) result := by
  have hplace : (before ++ piece.text).length = before.length + piece.text.length :=
    List.length_append
  have hne : cs ≠ [] := by
    rw [← hcs]
    exact List.append_ne_nil_of_left_ne_nil piece.text_ne_nil rest
  unfold VisitsFrom at hrest ⊢
  rw [List.append_assoc, hcs, hplace] at hrest
  have hlater := Nat.lt_add_of_pos_right (n := before.length)
    (List.length_pos_iff.mpr piece.text_ne_nil)
  exact Visits.next (place_lt before hne) hlater hturn hrest

theorem escapeTurn_end {place : Nat} (hplace : cs.length ≤ place) (out : List Char) :
    escapeTurn cs (place, out) = some (.inr out) := by
  rw [escapeTurn, if_neg (Nat.not_lt_of_le hplace)]
  rfl

theorem escapeTurn_place (before : List Char) (c : Char) (rest out : List Char) :
    escapeTurn (before ++ c :: rest) (before.length, out) =
      if c = '\\' then do
        let last := min (before ++ c :: rest).length (before.length + 2)
        let text ← slice? (before ++ c :: rest) before.length last
        return .inl (before.length + 2, out ++ text)
      else if c = '[' then do
        let last ← bracketEnd? (before ++ c :: rest) before.length
        let bracket ← slice? (before ++ c :: rest) before.length last
        let out ← escapeBracket? bracket out
        return .inl (last, out)
      else some (.inl (before.length + 1, out ++ [c])) := by
  rw [escapeTurn, if_pos (place_lt before (List.cons_ne_nil c rest)), getElem?_place]
  rfl

theorem escapeTurn_loneBackslash (before out : List Char) :
    escapeTurn (before ++ ['\\']) (before.length, out) =
      some (.inl (before.length + 2, out ++ ['\\'])) := by
  have hslice := slice?_append before ['\\'] []
  have hlast : min (before ++ ['\\']).length (before.length + 2) = (before ++ ['\\']).length := by
    simp
  rw [escapeTurn_place, if_pos rfl, hlast]
  exact congrArg (· >>= _) hslice

theorem escapeTurn_escape (before : List Char) (c : Char) (rest out : List Char) :
    escapeTurn (before ++ '\\' :: c :: rest) (before.length, out) =
      some (.inl (before.length + 2, out ++ ['\\', c])) := by
  have hslice := slice?_append before ['\\', c] rest
  have hlast : min (before ++ '\\' :: c :: rest).length (before.length + 2) =
      (before ++ ['\\', c]).length := by
    simp
  rw [escapeTurn_place, if_pos rfl, hlast]
  exact congrArg (· >>= _) hslice

theorem escapeTurn_bracket (before cs out : List Char) :
    escapeTurn (before ++ '[' :: cs) (before.length, out) =
      some (.inl (before.length + (Bracket.scan cs).1.text.length,
        out ++ (Bracket.scan cs).1.escapedText)) := by
  obtain ⟨text, hparts⟩ := Bracket.exists_parts cs
  have hslice := slice?_append before (Bracket.scan cs).1.text (Bracket.scan cs).2
  rw [Bracket.text_scan] at hslice
  rw [escapeTurn_place, if_neg (by decide), if_pos rfl, hparts.bracketEnd?_eq]
  simp only [Option.bind_eq_bind, Option.bind_some, hslice, hparts.escapeBracket?_eq]
  rw [List.length_append]
  rfl

theorem escapeTurn_single (hc : IsSingle c) (before rest out : List Char) :
    escapeTurn (before ++ c :: rest) (before.length, out) =
      some (.inl (before.length + 1, out ++ [c])) := by
  rw [escapeTurn_place, if_neg hc.1, if_neg hc.2]

theorem isSingle_of_ne (hlone : c = '\\' → rest = [] → False)
    (hescape : ∀ d more, c = '\\' → rest = d :: more → False) (hopen : c = '[' → False) :
    IsSingle c := by
  refine ⟨fun hc => ?_, hopen⟩
  cases rest with
  | nil => exact hlone hc rfl
  | cons d more => exact hescape d more hc rfl

/-- The loop that escapes a pattern goes from piece to piece. -/
theorem visitsFrom_escapeTurn (cs before out : List Char) :
    VisitsFrom escapeTurn before cs out (starts before.length (pieces cs))
      (out ++ (pieces cs).flatMap Piece.escapedText) := by
  fun_induction pieces cs generalizing before out with
  | case1 =>
      apply Visits.leave
      · simp
      · rw [escapeTurn_end (by simp)]
        simp
  | case2 =>
      -- The place behind a backslash that stands last is one too far.
      refine Visits.next (place_lt before (by simp)) (Nat.lt_add_of_pos_right Nat.two_pos)
        (escapeTurn_loneBackslash before out) ?_
      apply Visits.leave
      · simp
      · rw [escapeTurn_end (by simp)]
        simp [Piece.escapedText, Piece.text]
  | case3 c rest ih =>
      have hrest := ih (before ++ (Piece.escape c).text) (out ++ (Piece.escape c).escapedText)
      rw [starts_cons, List.flatMap_cons, ← List.append_assoc]
      exact VisitsFrom.piece (.escape c) rfl (escapeTurn_escape before c rest out) hrest
  | case4 rest ih =>
      have hrest := ih (before ++ (Bracket.scan rest).1.text)
        (out ++ (Bracket.scan rest).1.escapedText)
      rw [starts_cons, List.flatMap_cons, ← List.append_assoc]
      exact VisitsFrom.piece (.bracket (Bracket.scan rest).1) (Bracket.text_scan rest)
        (escapeTurn_bracket before rest out) hrest
  | case5 c rest hlone hescape hopen ih =>
      have hc := isSingle_of_ne hlone hescape hopen
      have hrest := ih (before ++ (Piece.single c).text) (out ++ (Piece.single c).escapedText)
      rw [starts_cons, List.flatMap_cons, ← List.append_assoc]
      exact VisitsFrom.piece (.single c) rfl (escapeTurn_single hc before rest out) hrest

theorem searchTurn_end (cs : List Char) (afterRepetition : Bool) :
    searchTurn cs (cs.length, afterRepetition) = some (.inr (.ok ())) := by
  rw [searchTurn, if_neg (Nat.lt_irrefl _)]
  rfl

theorem searchTurn_place (before : List Char) (c : Char) (rest : List Char)
    (afterRepetition : Bool) :
    searchTurn (before ++ c :: rest) (before.length, afterRepetition) =
      if c = '\\' then
        match rest.head? with
        | none => some (.inr (.error .trailingBackslash))
        | some escaped =>
            if escaped ∈ Ere.perlEscapes then some (.inr (.error (.perlEscape escaped)))
            else some (.inl (before.length + 2, false))
      else if c = '[' then do
        let last ← bracketEnd? (before ++ c :: rest) before.length
        return .inl (last, false)
      else if c = '(' ∧ rest.head? = some '?' then some (.inr (.error .groupFlags))
      else if c = '?' ∧ afterRepetition then some (.inr (.error .nonGreedy))
      else some (.inl (before.length + 1, endsRepetition c)) := by
  rw [searchTurn, if_pos (place_lt before (List.cons_ne_nil c rest)), getElem?_place, getElem?_next]
  rfl

theorem searchTurn_bracket (before cs : List Char) (afterRepetition : Bool) :
    searchTurn (before ++ '[' :: cs) (before.length, afterRepetition) =
      some (.inl (before.length + (Bracket.scan cs).1.text.length, false)) := by
  obtain ⟨text, hparts⟩ := Bracket.exists_parts cs
  rw [searchTurn_place, if_neg (by decide), if_pos rfl, hparts.bracketEnd?_eq, List.length_append]
  rfl

theorem searchTurn_single (hc : IsSingle c) (before rest : List Char) (afterRepetition : Bool) :
    searchTurn (before ++ c :: rest) (before.length, afterRepetition) =
      if c = '(' ∧ rest.head? = some '?' then some (.inr (.error .groupFlags))
      else if c = '?' ∧ afterRepetition then some (.inr (.error .nonGreedy))
      else some (.inl (before.length + 1, endsRepetition c)) := by
  rw [searchTurn_place, if_neg hc.1, if_neg hc.2]

/-- A question mark stands first among the pieces if it stands first in the text. -/
theorem foreign?_single_pieces (c : Char) (rest : List Char) (afterRepetition : Bool) :
    Ere.foreign? afterRepetition (.single c :: pieces rest) =
      if c = '(' ∧ rest.head? = some '?' then some .groupFlags
      else if c = '?' ∧ afterRepetition then some .nonGreedy
      else Ere.foreign? (endsRepetition c) (pieces rest) := by
  by_cases hflags : c = '(' ∧ rest.head? = some '?'
  · obtain ⟨rfl, hhead⟩ := hflags
    obtain ⟨more, rfl⟩ := List.head?_eq_some_iff.mp hhead
    rw [pieces_single (by decide), Ere.foreign?, if_pos ⟨rfl, rfl⟩]
  · rw [if_neg hflags, Ere.foreign?]
    · rfl
    · intro more hmore hc
      have htext := text_pieces rest
      rw [hmore, List.flatMap_cons] at htext
      exact hflags ⟨hc, by rw [← htext]; rfl⟩

/-- What the search tells of what it found. -/
def verdict : Option EreError → Except EreError Unit
  | some error => .error error
  | none => .ok ()

theorem check_eq_verdict (pattern : List Char) :
    Ere.check pattern = verdict (Ere.foreign? false (pieces pattern)) := by
  rw [Ere.check]
  cases Ere.foreign? false (pieces pattern) <;> rfl

/-- The loop that searches a text comes to the pieces of it in their order, to all of them if it
finds nothing, and tells what the search of the pieces finds. -/
def Follows (before cs : List Char) (afterRepetition : Bool) (ps : List Piece) : Prop :=
  ∃ places,
    VisitsFrom searchTurn before cs afterRepetition places
      (verdict (Ere.foreign? afterRepetition ps)) ∧
    places <+: starts before.length ps ∧
    (Ere.foreign? afterRepetition ps = none → places = starts before.length ps)

section Follows

variable {afterRepetition later : Bool} {ps : List Piece}

theorem Follows.stop {error : EreError} (piece : Piece) (hne : cs ≠ [])
    (hturn : searchTurn (before ++ cs) (before.length, afterRepetition) =
      some (.inr (.error error)))
    (hfound : Ere.foreign? afterRepetition (piece :: ps) = some error) :
    Follows before cs afterRepetition (piece :: ps) := by
  refine ⟨[before.length], ?_, ?_, ?_⟩
  · rw [hfound]
    exact Visits.stop (place_lt before hne) hturn
  · rw [starts_cons]
    exact List.prefix_append [before.length] _
  · intro hnone
    rw [hfound] at hnone
    cases hnone

theorem Follows.piece (piece : Piece) (hcs : piece.text ++ rest = cs)
    (hturn : searchTurn (before ++ cs) (before.length, afterRepetition) =
      some (.inl (before.length + piece.text.length, later)))
    (hforeign : Ere.foreign? afterRepetition (piece :: ps) = Ere.foreign? later ps)
    (hrest : Follows (before ++ piece.text) rest later ps) :
    Follows before cs afterRepetition (piece :: ps) := by
  obtain ⟨places, hvisits, hprefix, hall⟩ := hrest
  rw [Follows, hforeign, starts_cons]
  refine ⟨before.length :: places, VisitsFrom.piece piece hcs hturn hvisits, ?_, ?_⟩
  · exact (List.prefix_cons_inj before.length).mpr hprefix
  · exact fun hnone => by rw [hall hnone]

end Follows

/-- The loop that searches a pattern goes from piece to piece as well, as far as it gets. -/
theorem follows_pieces (cs before : List Char) (afterRepetition : Bool) :
    Follows before cs afterRepetition (pieces cs) := by
  fun_induction pieces cs generalizing before afterRepetition with
  | case1 =>
      refine ⟨[], Visits.leave ?_ ?_, List.prefix_rfl, fun _ => rfl⟩
      · simp
      · rw [List.append_nil, searchTurn_end]
        rfl
  | case2 =>
      have hturn := searchTurn_place before '\\' [] afterRepetition
      rw [if_pos rfl, List.head?_nil] at hturn
      refine Follows.stop _ (by simp) hturn ?_
      rw [Ere.foreign?]
  | case3 c rest ih =>
      have hturn := searchTurn_place before '\\' (c :: rest) afterRepetition
      rw [if_pos rfl, List.head?_cons] at hturn
      by_cases hc : c ∈ Ere.perlEscapes
      · refine Follows.stop _ (by simp) (hturn.trans (if_pos hc)) ?_
        rw [Ere.foreign?, if_pos hc]
      · refine Follows.piece _ rfl (hturn.trans (if_neg hc)) ?_ (ih _ _)
        rw [Ere.foreign?, if_neg hc]
  | case4 rest ih =>
      refine Follows.piece _ (Bracket.text_scan rest)
        (searchTurn_bracket before rest afterRepetition) ?_ (ih _ _)
      rw [Ere.foreign?]
  | case5 c rest hlone hescape hopen ih =>
      have hturn := searchTurn_single (isSingle_of_ne hlone hescape hopen) before rest
        afterRepetition
      have hforeign := foreign?_single_pieces c rest afterRepetition
      by_cases hflags : c = '(' ∧ rest.head? = some '?'
      · rw [if_pos hflags] at hturn hforeign
        exact Follows.stop _ (by simp) hturn hforeign
      by_cases hlazy : c = '?' ∧ afterRepetition
      · rw [if_neg hflags, if_pos hlazy] at hturn hforeign
        exact Follows.stop _ (by simp) hturn hforeign
      · rw [if_neg hflags, if_neg hlazy] at hturn hforeign
        exact Follows.piece (.single c) rfl hturn hforeign (ih _ _)

/-! ### What is written down -/

/-- How a character of a pattern is written down. -/
inductive Stroke where
  /-- As it is. -/
  | copied (c : Char)
  /-- With a backslash put in front of it. -/
  | escaped (c : Char)
deriving DecidableEq, Repr, Inhabited

/-- The character without a backslash that was put in. -/
def Stroke.char : Stroke → Char
  | .copied c => c
  | .escaped c => c

def Stroke.text : Stroke → List Char
  | .copied c => [c]
  | .escaped c => ['\\', c]

def BracketItem.strokes : BracketItem → List Stroke
  | .member c => [if needsEscape c then .escaped c else .copied c]
  | .named name closed => (BracketItem.named name closed).text.map .copied

/-- Of a bracket expression only members get a backslash: a closing bracket that stands first, and
those with a meaning of their own.  Classes are copied. -/
def Bracket.strokes (bracket : Bracket) : List Stroke :=
  .copied '[' :: (if bracket.negated then [.copied '^'] else []) ++
    (if bracket.closeFirst then [.escaped ']'] else []) ++
    bracket.items.flatMap BracketItem.strokes ++ (if bracket.closed then [.copied ']'] else [])

/-- Outside of bracket expressions everything is copied. -/
def Piece.strokes : Piece → List Stroke
  | .bracket b => b.strokes
  | piece => piece.text.map .copied

theorem map_char_copied (cs : List Char) : (cs.map Stroke.copied).map Stroke.char = cs := by
  rw [List.map_map]
  exact List.map_id cs

theorem flatMap_text_copied (cs : List Char) : (cs.map Stroke.copied).flatMap Stroke.text = cs := by
  rw [List.flatMap_map]
  exact List.flatMap_singleton' cs

theorem BracketItem.map_char_strokes (item : BracketItem) :
    item.strokes.map Stroke.char = item.text := by
  cases item with
  | member c =>
      rw [strokes]
      split <;> rfl
  | named name closed => exact map_char_copied _

theorem BracketItem.flatMap_text_strokes (item : BracketItem) :
    item.strokes.flatMap Stroke.text = item.escapedText := by
  cases item with
  | member c =>
      rw [strokes, escapedText]
      split <;> rfl
  | named name closed => exact flatMap_text_copied _

theorem Bracket.map_char_strokes (bracket : Bracket) :
    bracket.strokes.map Stroke.char = bracket.text := by
  unfold strokes text
  simp only [List.map_append, List.map_cons, List.map_flatMap, BracketItem.map_char_strokes]
  congr <;> split <;> rfl

theorem Bracket.flatMap_text_strokes (bracket : Bracket) :
    bracket.strokes.flatMap Stroke.text = bracket.escapedText := by
  unfold strokes escapedText
  simp only [List.flatMap_append, List.flatMap_cons, List.flatMap_assoc,
    BracketItem.flatMap_text_strokes]
  congr <;> split <;> rfl

theorem Piece.map_char_strokes (piece : Piece) : piece.strokes.map Stroke.char = piece.text := by
  cases piece with
  | bracket b => exact b.map_char_strokes
  | _ => exact map_char_copied _

theorem Piece.flatMap_text_strokes (piece : Piece) :
    piece.strokes.flatMap Stroke.text = piece.escapedText := by
  cases piece with
  | bracket b => exact b.flatMap_text_strokes
  | _ => exact flatMap_text_copied _

/-- A pattern as it is written down: the strokes of its pieces. -/
def strokes (pattern : List Char) : List Stroke :=
  (pieces pattern).flatMap Piece.strokes

/-- Without the backslashes that were put in the pattern is what it was. -/
theorem map_char_strokes (pattern : List Char) : (strokes pattern).map Stroke.char = pattern := by
  rw [strokes, List.map_flatMap]
  simp only [Piece.map_char_strokes]
  exact text_pieces pattern

theorem flatMap_text_strokes (pattern : List Char) :
    (strokes pattern).flatMap Stroke.text = escapeBrackets pattern := by
  rw [strokes, List.flatMap_assoc]
  simp only [Piece.flatMap_text_strokes]
  rfl

/-- Whether a character stands in a bracket expression as a member that gets a backslash. -/
def Bracket.Escapes (bracket : Bracket) (c : Char) : Prop :=
  (c = ']' ∧ bracket.closeFirst) ∨ (.member c ∈ bracket.items ∧ needsEscape c)

theorem escaped_notMem_copied (c : Char) (cs : List Char) :
    Stroke.escaped c ∉ cs.map Stroke.copied := by
  simp

theorem BracketItem.eq_member_of_escaped_mem {item : BracketItem}
    (hmem : .escaped c ∈ item.strokes) : item = .member c ∧ needsEscape c := by
  cases item with
  | member d =>
      rw [strokes] at hmem
      split at hmem
      · rename_i hescape
        cases List.mem_singleton.mp hmem
        exact ⟨rfl, hescape⟩
      · cases List.mem_singleton.mp hmem
  | named name closed => exact absurd hmem (escaped_notMem_copied c _)

theorem Bracket.escapes_of_escaped_mem {bracket : Bracket} (hmem : .escaped c ∈ bracket.strokes) :
    bracket.Escapes c := by
  simp only [strokes, List.cons_append, List.mem_cons, List.mem_append, List.mem_flatMap] at hmem
  rcases hmem with hopen | ((hcaret | hfirst) | ⟨item, hitem, hmem⟩) | hclose
  · cases hopen
  · split at hcaret <;> simp at hcaret
  · split at hfirst
    · rename_i hpresent
      exact Or.inl ⟨by simpa using hfirst, hpresent⟩
    · cases hfirst
  · obtain ⟨rfl, hescape⟩ := BracketItem.eq_member_of_escaped_mem hmem
    exact Or.inr ⟨hitem, hescape⟩
  · split at hclose <;> simp at hclose

/-- Only members of bracket expressions get a backslash. -/
theorem exists_bracket_of_escaped_mem {pattern : List Char} (hmem : .escaped c ∈ strokes pattern) :
    ∃ bracket, .bracket bracket ∈ pieces pattern ∧ bracket.Escapes c := by
  obtain ⟨piece, hpiece, hmem⟩ := List.mem_flatMap.mp hmem
  cases piece with
  | bracket b => exact ⟨b, hpiece, Bracket.escapes_of_escaped_mem hmem⟩
  | _ => exact absurd hmem (escaped_notMem_copied c _)

/-- Both loops end, at the latest in one turn more than the pattern has characters, and never read
where nothing stands.  The search tells what it finds in the pieces, and the escaped pattern is that
of the pieces.  Escaping cuts the pattern into its pieces, and the search cuts it at the same
places: all of them, or as many as it gets to.  What is written down is the pattern with a backslash
put in front of some members of bracket expressions. -/
theorem search_and_escaping_cut_alike (pattern : List Char) :
    ∃ searched,
      Visits (searchTurn pattern) pattern.length (0, false) searched (Ere.check pattern) ∧
      Visits (escapeTurn pattern) pattern.length (0, []) (starts 0 (pieces pattern))
        (escapeBrackets pattern) ∧
      searched <+: starts 0 (pieces pattern) ∧
      (Ere.check pattern = .ok () → searched = starts 0 (pieces pattern)) ∧
      (pieces pattern).flatMap Piece.text = pattern ∧
      (strokes pattern).flatMap Stroke.text = escapeBrackets pattern ∧
      (strokes pattern).map Stroke.char = pattern ∧
      ∀ c, .escaped c ∈ strokes pattern →
        ∃ bracket, .bracket bracket ∈ pieces pattern ∧ bracket.Escapes c := by
  obtain ⟨searched, hsearch, hprefix, hall⟩ := follows_pieces pattern [] false
  have hescape := visitsFrom_escapeTurn pattern [] []
  refine ⟨searched, ?_, hescape, hprefix, ?_, text_pieces pattern, flatMap_text_strokes pattern,
    map_char_strokes pattern, fun c => exists_bracket_of_escaped_mem⟩
  · rw [check_eq_verdict]
    exact hsearch
  · intro hok
    apply hall
    rw [check_eq_verdict] at hok
    cases hforeign : Ere.foreign? false (pieces pattern) with
    | none => rfl
    | some error =>
        rw [hforeign] at hok
        cases hok

/-- The ampersand in a class without an end is part of its name. -/
example : strokes ['[', '&', '[', ':', '&'] =
    [.copied '[', .escaped '&', .copied '[', .copied ':', .copied '&'] := by decide +kernel

end Pattern

end LogForwarding
