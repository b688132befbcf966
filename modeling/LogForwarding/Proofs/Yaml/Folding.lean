import LogForwarding.Json.Printer
import LogForwarding.Yaml.Token.Quoted

/-!
Printed texts as a YAML reader meets them.  Printing escapes quotes, backslashes and the control
characters below the space, and nothing else: a space and the three line breaks that are no control
characters of ASCII stand between the quotes as they are, and the reader folds them.
-/

namespace LogForwarding.Yaml

/-- A place in a stream. -/
structure Place where
  index : Nat
  line : Nat
  column : Nat

/-- A line break that printing does not escape. -/
def isSeparator (c : Char) : Bool :=
  c = '\u0085' ∨ c = '\u2028' ∨ c = '\u2029'

/-- White space that printing does not escape. -/
def isWhite (c : Char) : Bool :=
  c = ' ' ∨ isSeparator c

/-- A character as the reader has it: the next-line character is a line feed. -/
def readAs (c : Char) : Char :=
  if c = '\u0085' then '\n' else c

theorem isSeparator_iff {c : Char} :
    isSeparator c ↔ c = '\u0085' ∨ c = '\u2028' ∨ c = '\u2029' :=
  decide_eq_true_iff

theorem isWhite_iff {c : Char} :
    isWhite c ↔ c = ' ' ∨ c = '\u0085' ∨ c = '\u2028' ∨ c = '\u2029' := by
  rw [← isSeparator_iff]
  exact decide_eq_true_iff

/-- The reader takes it for white space, too. -/
theorem blank_or_break_readAs {c : Char} (hc : isWhite c) :
    isBlank (readAs c) ∨ isBreak (readAs c) := by
  rcases isWhite_iff.mp hc with rfl | rfl | rfl | rfl <;> decide

/-- A visible character of ASCII. -/
def IsGraphic (c : Char) : Prop :=
  0x20 < c.toNat ∧ c.toNat < 0x7F

instance : DecidablePred IsGraphic :=
  fun _ => inferInstanceAs (Decidable (_ ∧ _))

namespace IsGraphic

variable {c : Char}

theorem ne_low (hc : IsGraphic c) (other : Char) (hother : other.toNat ≤ 0x20) : c ≠ other := by
  rintro rfl
  exact absurd hc.1 (by omega)

theorem ne_high (hc : IsGraphic c) (other : Char) (hother : 0x7F ≤ other.toNat) : c ≠ other := by
  rintro rfl
  exact absurd hc.2 (by omega)

theorem not_separator (hc : IsGraphic c) : isSeparator c = false := by
  simp [isSeparator, hc.ne_high '\u0085' (by decide),
    hc.ne_high '\u2028' (by decide), hc.ne_high '\u2029' (by decide)]

theorem not_break (hc : IsGraphic c) : isBreak c = false := by
  simp [isBreak, hc.ne_low '\n' (by decide),
    hc.ne_high '\u2028' (by decide), hc.ne_high '\u2029' (by decide)]

theorem not_blank (hc : IsGraphic c) : isBlank c = false := by
  simp [isBlank, hc.ne_low ' ' (by decide), hc.ne_low '\t' (by decide)]

theorem ne_endMark (hc : IsGraphic c) : c ≠ endMark :=
  hc.ne_low _ (by decide)

theorem not_blankOrEnd (hc : IsGraphic c) : isBlankOrEnd c = false := by
  simp [isBlankOrEnd, isBreakOrEnd, hc.not_blank, hc.not_break, hc.ne_endMark]

theorem readAs_eq (hc : IsGraphic c) : readAs c = c :=
  if_neg (hc.ne_high _ (by decide))

end IsGraphic

namespace Place

/-- The place behind a character. -/
def after (p : Place) (c : Char) : Place :=
  if isSeparator c then ⟨p.index + 1, p.line + 1, 0⟩ else ⟨p.index + 1, p.line, p.column + 1⟩

/-- The place behind some characters. -/
def behind (p : Place) (cs : List Char) : Place :=
  cs.foldl after p

/-- Characters that stand at a place. -/
def located (p : Place) (cs : List Char) : Source :=
  locate p.index p.line p.column cs

@[simp] theorem behind_nil (p : Place) : p.behind [] = p := rfl

@[simp] theorem behind_cons (p : Place) (c : Char) (cs : List Char) :
    p.behind (c :: cs) = (p.after c).behind cs := rfl

@[simp] theorem behind_append (p : Place) (cs more : List Char) :
    p.behind (cs ++ more) = (p.behind cs).behind more :=
  List.foldl_append

@[simp] theorem index_after (p : Place) (c : Char) : (p.after c).index = p.index + 1 := by
  rw [after]
  split <;> rfl

theorem index_behind (p : Place) (cs : List Char) :
    (p.behind cs).index = p.index + cs.length := by
  induction cs generalizing p with
  | nil => rfl
  | cons c cs ih =>
      rw [behind_cons, ih, index_after, List.length_cons]
      omega

theorem column_after_eq_zero_iff (p : Place) (c : Char) :
    (p.after c).column = 0 ↔ isSeparator c := by
  rw [after]
  split <;> simp_all

theorem line_after (p : Place) (c : Char) :
    (p.after c).line = if isSeparator c then p.line + 1 else p.line := by
  rw [after]
  split <;> rfl

theorem line_le_behind (p : Place) (cs : List Char) : p.line ≤ (p.behind cs).line := by
  induction cs generalizing p with
  | nil => exact Nat.le_refl _
  | cons c cs ih =>
      refine Nat.le_trans ?_ (ih (p.after c))
      rw [line_after]
      split <;> omega

/-- The line changes exactly where there is a line break. -/
theorem line_behind_eq_iff (p : Place) (cs : List Char) :
    (p.behind cs).line = p.line ↔ ∀ c ∈ cs, ¬ isSeparator c := by
  induction cs generalizing p with
  | nil => simp
  | cons c cs ih =>
      rw [behind_cons, List.forall_mem_cons, ← ih (p.after c), line_after]
      have hle := line_le_behind (p.after c) cs
      rw [line_after] at hle
      by_cases hc : isSeparator c
      · simp only [hc, if_true] at hle ⊢
        constructor
        · intro heq
          omega
        · rintro ⟨hnot, -⟩
          exact absurd trivial hnot
      · simp [hc]

@[simp] theorem located_nil (p : Place) :
    p.located [] = [⟨endMark, p.index, p.line, p.column⟩] := rfl

theorem located_cons (p : Place) {c : Char} (hreturn : c ≠ '\r') (hfeed : c ≠ '\n')
    (rest : List Char) :
    p.located (c :: rest) = ⟨readAs c, p.index, p.line, p.column⟩ :: (p.after c).located rest := by
  rw [located, locate.eq_3 _ _ _ _ _ (fun _ hc => absurd hc hreturn)]
  by_cases hnext : c = '\u0085'
  · subst hnext
    rfl
  · have hread : readAs c = c := if_neg hnext
    rw [hread, located, after]
    by_cases hbreak : isBreak c
    · have hseparator : isSeparator c := by simpa [isBreak, isSeparator, hfeed, hnext] using hbreak
      simp [hfeed, hreturn, hnext, hbreak, hseparator]
    · have hseparator : ¬ isSeparator c := by
        simpa [isBreak, isSeparator, hfeed, hnext] using hbreak
      simp [hfeed, hreturn, hnext, hbreak, hseparator]

theorem located_graphic (p : Place) {c : Char} (hc : IsGraphic c) (rest : List Char) :
    p.located (c :: rest) = ⟨c, p.index, p.line, p.column⟩ :: (p.after c).located rest := by
  rw [located_cons p (hc.ne_low _ (by decide)) (hc.ne_low _ (by decide)), hc.readAs_eq]

/-- Characters other than control characters take a place each. -/
theorem length_located_append (p : Place) {cs : List Char} (hclean : ∀ c ∈ cs, 0x20 ≤ c.toNat)
    (rest : List Char) :
    (p.located (cs ++ rest)).length = cs.length + ((p.behind cs).located rest).length := by
  induction cs generalizing p with
  | nil => simp
  | cons c cs ih =>
      obtain ⟨hc, hothers⟩ := List.forall_mem_cons.mp hclean
      have hne {other : Char} (hother : other.toNat < 0x20) : c ≠ other := by
        rintro rfl
        omega
      rw [List.cons_append, located_cons p (hne (by decide)) (hne (by decide)), List.length_cons,
        ih _ hothers, List.length_cons, behind_cons]
      omega

end Place

/-- The characters that a printed text has between its quotes. -/
def escaped (text : List Char) : List Char :=
  text.flatMap Json.escapedChar

@[simp] theorem escaped_nil : escaped [] = [] := rfl

theorem escaped_cons (c : Char) (text : List Char) :
    escaped (c :: text) = Json.escapedChar c ++ escaped text :=
  List.flatMap_cons

/-- A character that is printed as it is. -/
def IsBare (c : Char) : Prop :=
  0x20 ≤ c.toNat ∧ c ≠ '"' ∧ c ≠ '\\'

instance : DecidablePred IsBare :=
  fun _ => inferInstanceAs (Decidable (_ ∧ _ ∧ _))

theorem IsBare.of_white {c : Char} (hc : isWhite c) : IsBare c := by
  rcases isWhite_iff.mp hc with rfl | rfl | rfl | rfl <;> decide

theorem IsBare.escapedChar {c : Char} (hc : IsBare c) : Json.escapedChar c = [c] := by
  obtain ⟨hlow, hquote, hslash⟩ := hc
  have hne {other : Char} (hother : other.toNat < 0x20) : c ≠ other := by
    rintro rfl
    omega
  rw [Json.escapedChar, if_neg hquote, if_neg hslash, if_neg (hne (by decide)),
    if_neg (hne (by decide)), if_neg (hne (by decide)), if_neg (hne (by decide)),
    if_neg (hne (by decide)), if_neg (by omega)]

theorem IsBare.ne_control {c other : Char} (hc : IsBare c) (hother : other.toNat < 0x20) :
    c ≠ other := by
  rintro rfl
  exact absurd hc.1 (by omega)

theorem IsBare.readAs_eq {c : Char} (hsolid : isWhite c = false) : readAs c = c := by
  refine if_neg ?_
  rintro rfl
  exact absurd hsolid (by decide)

/-- The reader takes it for no white space, either. -/
theorem IsBare.not_white {c : Char} (hc : IsBare c) (hsolid : isWhite c = false) :
    isBlank c = false ∧ isBreak c = false := by
  have htab : c ≠ '\t' := hc.ne_control (by decide)
  have hfeed : c ≠ '\n' := hc.ne_control (by decide)
  have hnone := (Bool.eq_false_iff.mp hsolid).imp isWhite_iff.mpr
  simp only [not_or] at hnone
  obtain ⟨hspace, -, hline, hparagraph⟩ := hnone
  exact ⟨by simp [isBlank, hspace, htab], by simp [isBreak, hfeed, hline, hparagraph]⟩

/-- What is not printed as it is stands behind a backslash. -/
theorem escapedChar_cases (c : Char) :
    IsBare c ∨
      (∃ letter, Json.escapedChar c = ['\\', letter] ∧ IsGraphic letter ∧
        escapedLetter letter = some c) ∨
      (c.toNat < 0x20 ∧ Json.escapedChar c =
        ['\\', 'u', '0', '0', Json.hexDigit (c.toNat / 16), Json.hexDigit c.toNat]) := by
  by_cases hbare : IsBare c
  · exact Or.inl hbare
  · refine Or.inr ?_
    rw [Json.escapedChar]
    repeat
      split
      · subst_vars
        exact Or.inl ⟨_, rfl, by decide, rfl⟩
    split
    · exact Or.inr ⟨‹_›, rfl⟩
    · rename_i hquote hslash _ _ _ _ _ hlow
      exact absurd ⟨Nat.le_of_not_lt hlow, hquote, hslash⟩ hbare

theorem isGraphic_hexDigit (n : Nat) : IsGraphic (Json.hexDigit n) := by
  have hall : ∀ digit < 16, IsGraphic (Nat.digitChar digit) := by decide
  exact hall (n % 16) (Nat.mod_lt n (by decide))

theorem clean_escapedChar (c : Char) : ∀ d ∈ Json.escapedChar c, 0x20 ≤ d.toNat := by
  intro d hmem
  rcases escapedChar_cases c with hbare | ⟨letter, heq, hgraphic, -⟩ | ⟨-, heq⟩
  · rw [hbare.escapedChar, List.mem_singleton] at hmem
    exact hmem ▸ hbare.1
  · simp only [heq, List.mem_cons, List.not_mem_nil, or_false] at hmem
    rcases hmem with rfl | rfl
    · decide
    · exact Nat.le_of_lt hgraphic.1
  · simp only [heq, List.mem_cons, List.not_mem_nil, or_false] at hmem
    rcases hmem with rfl | rfl | rfl | rfl | rfl | rfl
    · decide
    · decide
    · decide
    · decide
    · exact Nat.le_of_lt (isGraphic_hexDigit _).1
    · exact Nat.le_of_lt (isGraphic_hexDigit _).1

theorem hexDigitValue_hexDigit (n : Nat) :
    Bytes.hexDigitValue (Json.hexDigit n) = some (n % 16) := by
  have hall : ∀ digit < 16, Bytes.hexDigitValue (Nat.digitChar digit) = some digit := by decide
  exact hall (n % 16) (Nat.mod_lt n (by decide))

section Scanning

variable {single : Bool} (seen : List Char) {site : Sited} (rest : Source)

theorem scanQuoted_code {missing value : Nat} (digit : Nat)
    (hdigit : Bytes.hexDigitValue site.char = some digit) (hmissing : 1 < missing) :
    scanQuoted single seen (.code missing value) (site :: rest) =
      scanQuoted single seen (.code (missing - 1) (value * 16 + digit)) rest := by
  rw [scanQuoted]
  simp [codeStep, hdigit, hmissing]

theorem scanQuoted_lastCode {value digit : Nat} (c : Char)
    (hdigit : Bytes.hexDigitValue site.char = some digit) (hc : value * 16 + digit = c.toNat) :
    scanQuoted single seen (.code 1 value) (site :: rest) =
      scanQuoted single (c :: seen) .content rest := by
  have hvalid : (value * 16 + digit).isValidChar := hc ▸ c.valid
  have hchar : Char.ofNatAux (value * 16 + digit) hvalid = c := by
    have hread := c.ofNat_toNat
    rwa [← hc, Char.ofNat, dif_pos hvalid] at hread
  have hstep : codeStep seen 1 value site.char = .next (c :: seen) .content := by
    rw [codeStep, hdigit, ← hchar]
    exact dif_pos hvalid
  simp only [scanQuoted, hstep]

end Scanning

/-- An escaped character is read as itself. -/
theorem scanQuoted_escape {c : Char} (hc : ¬ IsBare c) (seen : List Char) (p : Place)
    (rest : List Char) :
    scanQuoted false seen .content (p.located (Json.escapedChar c ++ rest)) =
      scanQuoted false (c :: seen) .content
        ((p.behind (Json.escapedChar c)).located rest) := by
  have hopen (more : List Char) :
      scanQuoted false seen .content (p.located ('\\' :: more)) =
        scanQuoted false seen .escape ((p.after '\\').located more) := by
    rw [Place.located_graphic p (by decide), scanQuoted]
    rfl
  rcases escapedChar_cases c with hbare | ⟨letter, heq, hgraphic, hletter⟩ | ⟨hlow, heq⟩
  · exact absurd hbare hc
  · rw [heq, List.cons_append, hopen, List.cons_append, Place.located_graphic _ hgraphic,
      List.nil_append, scanQuoted]
    simp [escapeStep, hgraphic.not_break, hletter]
  · have hstart (site : Sited) (more : Source) (hsite : site.char = 'u') :
        scanQuoted false seen .escape (site :: more) =
          scanQuoted false seen (.code 4 0) more := by
      rw [scanQuoted]
      simp [hsite, escapeStep, isBreak, escapedLetter, escapeWidth]
    rw [heq, List.cons_append, hopen]
    simp only [List.cons_append, List.nil_append, Place.located_graphic, isGraphic_hexDigit,
      (by decide : IsGraphic 'u'), (by decide : IsGraphic '0')]
    rw [hstart _ _ rfl, scanQuoted_code seen _ 0 rfl (by decide),
      scanQuoted_code seen _ 0 rfl (by decide),
      scanQuoted_code seen _ _ (hexDigitValue_hexDigit _) (by decide),
      scanQuoted_lastCode seen _ c (hexDigitValue_hexDigit _) (by omega)]
    rfl


/-! ### Folding -/

namespace Gap

/-- The text that white space stands for. -/
def text (gap : Gap) : List Char :=
  gap.foldedReversed.reverse

end Gap

/-- Three hyphens or three points at the start of a line, with white space behind them. -/
def beginsMarker : List Char → Bool
  | a :: b :: c :: d :: _ => (a = '-' ∨ a = '.') ∧ b = a ∧ c = a ∧ isWhite d
  | _ => false

theorem beginsMarker_iff {text : List Char} :
    beginsMarker text ↔
      ∃ mark next more, (mark = '-' ∨ mark = '.') ∧ isWhite next ∧
        text = List.replicate 3 mark ++ next :: more := by
  constructor
  · intro hmarker
    match text, hmarker with
    | a :: b :: c :: d :: more, hmarker =>
        simp only [beginsMarker, decide_eq_true_eq] at hmarker
        obtain ⟨hmark, rfl, rfl, hnext⟩ := hmarker
        exact ⟨c, d, more, hmark, hnext, rfl⟩
  · rintro ⟨mark, next, more, hmark, hnext, rfl⟩
    simp [List.replicate, beginsMarker, hmark, hnext]

/-- What the reader makes of the characters of a printed text behind some white space, and whether
they stand at the start of a line.  A line that begins like a document marker is refused. -/
def fold (fresh : Bool) (gap : Gap) : List Char → Option (List Char)
  | [] => some gap.text
  | c :: rest =>
      if isWhite c then fold (isSeparator c) (gap.push (readAs c)) rest
      else if fresh ∧ beginsMarker (c :: rest) then none
      else (fold false Gap.empty rest).map fun more => gap.text ++ c :: more

/-- What the reader makes of a printed text. -/
def folded? (text : String) : Option String :=
  (fold false Gap.empty text.toList).map String.ofList

/-- The first character of a printed text and what stands behind it. -/
theorem located_escaped_cases (p : Place) (text rest : List Char) :
    (∃ c more, text = c :: more ∧ IsBare c ∧
      p.located (escaped text ++ '"' :: rest) =
        ⟨readAs c, p.index, p.line, p.column⟩ ::
          (p.after c).located (escaped more ++ '"' :: rest)) ∨
    ((∀ c ∈ text.head?, ¬ IsBare c) ∧
      ∃ c more, IsGraphic c ∧ (c = '"' ∨ c = '\\') ∧
        p.located (escaped text ++ '"' :: rest) = ⟨c, p.index, p.line, p.column⟩ :: more) := by
  cases text with
  | nil =>
      refine Or.inr ⟨by simp, '"', (p.after '"').located rest, by decide, Or.inl rfl, ?_⟩
      exact Place.located_graphic p (by decide) rest
  | cons c more =>
      by_cases hbare : IsBare c
      · refine Or.inl ⟨c, more, rfl, hbare, ?_⟩
        rw [escaped_cons, hbare.escapedChar, List.append_assoc, List.singleton_append,
          Place.located_cons p (hbare.ne_control (by decide)) (hbare.ne_control (by decide))]
      · refine Or.inr ⟨by simpa using hbare, ?_⟩
        have hslash : ∃ others, Json.escapedChar c = '\\' :: others := by
          rcases escapedChar_cases c with habsurd | ⟨letter, heq, -⟩ | ⟨-, heq⟩
          · exact absurd habsurd hbare
          · exact ⟨_, heq⟩
          · exact ⟨_, heq⟩
        obtain ⟨others, heq⟩ := hslash
        refine ⟨'\\', (p.after '\\').located (others ++ escaped more ++ '"' :: rest), by decide,
          Or.inr rfl, ?_⟩
        rw [escaped_cons, heq, List.cons_append, List.cons_append,
          Place.located_graphic p (by decide)]

/-- Whether white space begins a printed text. -/
theorem isBlankOrEnd_peek (p : Place) (text rest : List Char) :
    isBlankOrEnd (Source.peek (p.located (escaped text ++ '"' :: rest))) ↔
      ∃ next more, isWhite next ∧ text = next :: more := by
  rcases located_escaped_cases p text rest with ⟨c, more, rfl, hbare, heq⟩ |
    ⟨hhead, c, more, hgraphic, -, heq⟩
  · rw [heq, Source.peek]
    have hiff : isBlankOrEnd (readAs c) ↔ isWhite c := by
      by_cases hnext : c = '\u0085'
      · subst hnext
        decide
      · have hread : readAs c = c := if_neg hnext
        have hne (other : Char) (hother : other.toNat < 0x20) : c ≠ other :=
          hbare.ne_control hother
        simp [hread, isBlankOrEnd, isBlank, isBreakOrEnd, isBreak, isWhite, isSeparator, hnext,
          hne '\t' (by decide), hne '\n' (by decide),
          hne endMark (by decide)]
    rw [hiff]
    constructor
    · intro hwhite
      exact ⟨c, more, hwhite, rfl⟩
    · rintro ⟨next, others, hwhite, htext⟩
      obtain ⟨rfl, -⟩ := List.cons.inj htext
      exact hwhite
  · rw [heq, Source.peek, hgraphic.not_blankOrEnd]
    constructor
    · intro habsurd
      cases habsurd
    · rintro ⟨next, others, hwhite, rfl⟩
      exact absurd (IsBare.of_white hwhite) (hhead next rfl)

/-- Where equal marks begin a printed text, they are its own. -/
theorem replicate_mark_iff {mark : Char} (hmark : mark = '-' ∨ mark = '.') (count : Nat)
    (p : Place) (text rest : List Char) :
    (((p.located (escaped text ++ '"' :: rest)).take count).map Sited.char =
        List.replicate count mark ∧
      isBlankOrEnd (Source.peekAt (p.located (escaped text ++ '"' :: rest)) count)) ↔
      ∃ next more, isWhite next ∧ text = List.replicate count mark ++ next :: more := by
  have hbaremark : IsBare mark := by
    rcases hmark with rfl | rfl <;> decide
  induction count generalizing p text with
  | zero => simpa [Source.peekAt] using isBlankOrEnd_peek p text rest
  | succ count ih =>
      rcases located_escaped_cases p text rest with ⟨c, more, rfl, hbare, heq⟩ |
        ⟨hhead, c, more, hgraphic, hc, heq⟩
      · have hread : readAs c = mark ↔ c = mark := by
          by_cases hnext : c = '\u0085'
          · subst hnext
            rcases hmark with rfl | rfl <;> decide
          · rw [readAs, if_neg hnext]
        rw [heq]
        simp only [List.take_succ_cons, List.map_cons, List.replicate_succ, List.cons.injEq,
          List.cons_append, hread, and_assoc]
        constructor
        · rintro ⟨rfl, htake, hpeek⟩
          obtain ⟨next, others, hwhite, rfl⟩ := (ih (p.after c) more).mp ⟨htake, hpeek⟩
          exact ⟨next, others, hwhite, rfl, rfl⟩
        · rintro ⟨next, others, hwhite, rfl, rfl⟩
          exact ⟨rfl, (ih (p.after c) _).mpr ⟨next, others, hwhite, rfl⟩⟩
      · rw [heq]
        constructor
        · rintro ⟨htake, -⟩
          simp only [List.take_succ_cons, List.map_cons, List.replicate_succ,
            List.cons.injEq] at htake
          obtain ⟨rfl, -⟩ := htake
          rcases hmark with rfl | rfl <;> simp at hc
        · rintro ⟨next, others, -, rfl⟩
          exact absurd hbaremark (hhead mark rfl)

theorem site_located (p : Place) (text rest : List Char) :
    (Source.site (p.located (escaped text ++ '"' :: rest))).column = p.column := by
  rcases located_escaped_cases p text rest with ⟨c, more, -, -, heq⟩ | ⟨-, c, more, -, -, heq⟩ <;>
    rw [heq] <;> rfl

/-- A document marker among the characters of a printed text. -/
theorem atDocumentMarker_located (p : Place) (text rest : List Char) :
    Source.atDocumentMarker (p.located (escaped text ++ '"' :: rest)) ↔
      p.column = 0 ∧ beginsMarker text := by
  have hmark (mark : Char) (hmark : mark = '-' ∨ mark = '.') :
      Source.atMarker (p.located (escaped text ++ '"' :: rest)) mark ↔
        p.column = 0 ∧ ∃ next more, isWhite next ∧
          text = List.replicate 3 mark ++ next :: more := by
    rw [← replicate_mark_iff hmark 3 p text rest, Source.atMarker, site_located]
    simp [List.replicate]
  rw [Source.atDocumentMarker, decide_eq_true_eq, hmark _ (Or.inl rfl), hmark _ (Or.inr rfl),
    beginsMarker_iff]
  constructor
  · rintro (⟨hcolumn, next, more, hwhite, heq⟩ | ⟨hcolumn, next, more, hwhite, heq⟩)
    · exact ⟨hcolumn, _, next, more, Or.inl rfl, hwhite, heq⟩
    · exact ⟨hcolumn, _, next, more, Or.inr rfl, hwhite, heq⟩
  · rintro ⟨hcolumn, mark, next, more, rfl | rfl, hwhite, heq⟩
    · exact Or.inl ⟨hcolumn, next, more, hwhite, heq⟩
    · exact Or.inr ⟨hcolumn, next, more, hwhite, heq⟩

section Scanning

variable (seen : List Char) (gap : Gap) (p : Place)

theorem scanQuoted_white {c : Char} (hc : isWhite c) (rest : List Char) :
    scanQuoted false seen (.gap gap) (p.located (c :: rest)) =
      scanQuoted false seen (.gap (gap.push (readAs c))) ((p.after c).located rest) := by
  have hbare := IsBare.of_white hc
  rw [Place.located_cons p (hbare.ne_control (by decide)) (hbare.ne_control (by decide)),
    scanQuoted]
  simp [blank_or_break_readAs hc]

/-- White space ends at a character that is none. -/
theorem scanQuoted_gap {site : Sited} (hblank : isBlank site.char = false)
    (hbreak : isBreak site.char = false) (rest : Source)
    (hmarker : Source.atDocumentMarker (site :: rest) = false) :
    scanQuoted false seen (.gap gap) (site :: rest) =
      scanQuoted false (gap.foldedReversed ++ seen) .content (site :: rest) := by
  rw [scanQuoted, scanQuoted]
  simp [hblank, hbreak, hmarker]

/-- White space is over where a printed text goes on without it. -/
theorem located_solid (text : List Char) (hhead : ∀ c ∈ text.head?, ¬ isWhite c)
    (rest : List Char) :
    ∃ site more, p.located (escaped text ++ '"' :: rest) = site :: more ∧
      isBlank site.char = false ∧ isBreak site.char = false := by
  rcases located_escaped_cases p text rest with ⟨c, more, rfl, hbare, heq⟩ |
    ⟨-, c, more, hgraphic, -, heq⟩
  · have hsolid : isWhite c = false := by simpa using hhead c rfl
    rw [IsBare.readAs_eq hsolid] at heq
    exact ⟨_, _, heq, (hbare.not_white hsolid).1, (hbare.not_white hsolid).2⟩
  · exact ⟨_, _, heq, hgraphic.not_blank, hgraphic.not_break⟩

/-- Where no marker can stand, content is as good as no white space yet. -/
theorem scanQuoted_content (hcolumn : p.column ≠ 0) (text rest : List Char) :
    scanQuoted false seen .content (p.located (escaped text ++ '"' :: rest)) =
      scanQuoted false seen (.gap Gap.empty) (p.located (escaped text ++ '"' :: rest)) := by
  by_cases hhead : ∀ c ∈ text.head?, ¬ isWhite c
  · obtain ⟨site, more, heq, hblank, hbreak⟩ := located_solid p text hhead rest
    have hmarker : Source.atDocumentMarker (site :: more) = false := by
      rw [← heq, Bool.eq_false_iff]
      intro hmarker
      exact hcolumn ((atDocumentMarker_located p text rest).mp hmarker).1
    rw [heq, scanQuoted_gap seen Gap.empty hblank hbreak more hmarker]
    rfl
  · cases text with
    | nil => simp at hhead
    | cons c text =>
        have hwhite : isWhite c := by simpa using hhead
        have hbare := IsBare.of_white hwhite
        rw [escaped_cons, hbare.escapedChar, List.singleton_append, List.cons_append,
          scanQuoted_white seen Gap.empty p hwhite, Place.located_cons p
            (hbare.ne_control (by decide)) (hbare.ne_control (by decide)), scanQuoted]
        have hread := blank_or_break_readAs hwhite
        have hend : readAs c ≠ endMark := by
          intro heq
          rw [heq] at hread
          revert hread
          decide
        simp [contentStep, hread, hend]

/-- A character that is not white space is content. -/
theorem scanQuoted_solid {c : Char} (hc : isWhite c = false) (rest : List Char) :
    scanQuoted false seen .content (p.located (Json.escapedChar c ++ rest)) =
      scanQuoted false (c :: seen) .content
        ((p.behind (Json.escapedChar c)).located rest) := by
  by_cases hbare : IsBare c
  · obtain ⟨hblank, hbreak⟩ := hbare.not_white hc
    have hend : c ≠ endMark := hbare.ne_control (by decide)
    rw [hbare.escapedChar, List.singleton_append, Place.located_cons p
      (hbare.ne_control (by decide)) (hbare.ne_control (by decide)), scanQuoted,
      IsBare.readAs_eq hc]
    simp [contentStep, hend, hblank, hbreak, hbare.2.1, hbare.2.2]
  · exact scanQuoted_escape hbare seen p rest

theorem column_behind_escapedChar {c : Char} (hc : isWhite c = false) :
    (p.behind (Json.escapedChar c)).column ≠ 0 := by
  have hlast (start : Place) {last : Char} (hgraphic : IsGraphic last) :
      (start.after last).column ≠ 0 := by
    rw [Ne, Place.column_after_eq_zero_iff, hgraphic.not_separator]
    decide
  rcases escapedChar_cases c with hbare | ⟨letter, heq, hgraphic, -⟩ | ⟨-, heq⟩
  · rw [hbare.escapedChar, Place.behind_cons, Place.behind_nil, Ne,
      Place.column_after_eq_zero_iff]
    intro hseparator
    rw [isWhite_iff.mpr (Or.inr (isSeparator_iff.mp hseparator))] at hc
    cases hc
  · rw [heq]
    exact hlast _ hgraphic
  · rw [heq]
    exact hlast _ (isGraphic_hexDigit c.toNat)

theorem scanQuoted_fold {fresh : Bool} (hfresh : fresh ↔ p.column = 0) (text rest : List Char) :
    scanQuoted false seen (.gap gap) (p.located (escaped text ++ '"' :: rest)) =
      (fold fresh gap text).map fun more =>
        (String.ofList (seen.reverse ++ more),
          (p.behind (escaped text ++ ['"'])).located rest) := by
  induction text generalizing seen gap p fresh with
  | nil =>
      have hmarker := atDocumentMarker_located p [] rest
      rw [escaped_nil, List.nil_append, Place.located_graphic p (by decide)] at hmarker ⊢
      rw [scanQuoted_gap seen gap rfl rfl _ (by simpa [beginsMarker] using hmarker),
        scanQuoted]
      simp [contentStep, fold, Gap.text, endMark, isBlank, isBreak]
  | cons c text ih =>
      by_cases hwhite : isWhite c
      · have hafter : isSeparator c ↔ (p.after c).column = 0 :=
          (p.column_after_eq_zero_iff c).symm
        rw [escaped_cons, (IsBare.of_white hwhite).escapedChar, List.singleton_append,
          List.cons_append, scanQuoted_white seen gap p hwhite, ih seen _ _ hafter, fold,
          if_pos hwhite, List.cons_append, Place.behind_cons]
      · have hsolid : isWhite c = false := by simpa using hwhite
        have hmarker := atDocumentMarker_located p (c :: text) rest
        obtain ⟨site, more, heq, hblank, hbreak⟩ :=
          located_solid p (c :: text) (by simpa using hwhite) rest
        rw [fold, if_neg hwhite]
        by_cases hrefused : fresh ∧ beginsMarker (c :: text)
        · rw [if_pos hrefused, heq, scanQuoted]
          rw [heq, ← hfresh] at hmarker
          simp [hblank, hbreak, hmarker.mpr hrefused]
        · rw [← hfresh] at hmarker
          have hnone : Source.atDocumentMarker (site :: more) = false := by
            rw [← heq, Bool.eq_false_iff]
            exact fun hmark => hrefused (hmarker.mp hmark)
          have hcolumn := column_behind_escapedChar p hsolid
          have hafter : false ↔ (p.behind (Json.escapedChar c)).column = 0 := by
            simpa using hcolumn
          rw [if_neg hrefused, heq, scanQuoted_gap seen gap hblank hbreak more hnone, ← heq,
            escaped_cons, List.append_assoc, scanQuoted_solid _ _ hsolid,
            scanQuoted_content _ _ hcolumn, ih _ _ _ hafter, Option.map_map,
            List.append_assoc, Place.behind_append]
          congr 1
          funext others
          simp [Gap.text]

end Scanning

end LogForwarding.Yaml
