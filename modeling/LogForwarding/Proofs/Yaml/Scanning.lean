import LogForwarding.Proofs.Yaml.Word
import LogForwarding.Yaml.Token.Lexer
import Mathlib.Logic.Relation

/-!
The tokens of a printed value.
-/

namespace LogForwarding.Yaml

/-- A quoted text, from the first quote to the last. -/
def quoted (text : String) : List Char :=
  '"' :: escaped text.toList ++ ['"']

theorem toList_quotedText (text : String) : (Json.quotedText text).toList = quoted text :=
  Json.toList_quotedText text

theorem clean_quoted (text : String) : ∀ c ∈ quoted text, 0x20 ≤ c.toNat := by
  intro c hmem
  simp only [quoted, List.cons_append, List.mem_cons, List.mem_append, List.not_mem_nil,
    or_false] at hmem
  rcases hmem with rfl | hmem | rfl
  · decide
  · obtain ⟨d, -, hc⟩ := List.mem_flatMap.mp hmem
    exact clean_escapedChar d c hc
  · decide

/-- A key that the reader takes for one: it is on one line, and short. -/
def isSimpleKey (key : String) : Bool :=
  (key.toList.all fun c => ¬ isSeparator c) && (quoted key).length ≤ 1024

theorem isSimpleKey_iff {key : String} :
    isSimpleKey key ↔ (∀ c ∈ key.toList, ¬ isSeparator c) ∧ (quoted key).length ≤ 1024 := by
  simp [isSimpleKey]

/-- The tokens of a key and of the colon behind it. -/
def keyTokens (key read : String) : List Token :=
  (if isSimpleKey key then [.key] else []) ++ [.scalar read .quoted, .value]

theorem separator_mem_escaped {c : Char} (hc : isSeparator c) (text : List Char) :
    c ∈ escaped text ↔ c ∈ text := by
  rw [escaped, List.mem_flatMap]
  constructor
  · rintro ⟨d, hmem, hescaped⟩
    have hnone {other : Char} (hgraphic : IsGraphic other) : c ≠ other := by
      rintro rfl
      rw [hgraphic.not_separator] at hc
      cases hc
    rcases escapedChar_cases d with hbare | ⟨letter, heq, hgraphic, -⟩ | ⟨-, heq⟩
    · rw [hbare.escapedChar, List.mem_singleton] at hescaped
      exact hescaped ▸ hmem
    · rw [heq] at hescaped
      simp [hnone (by decide : IsGraphic '\\'), hnone hgraphic] at hescaped
    · rw [heq] at hescaped
      simp [hnone (by decide : IsGraphic '\\'), hnone (by decide : IsGraphic 'u'),
        hnone (by decide : IsGraphic '0'), hnone (isGraphic_hexDigit _)] at hescaped
  · intro hmem
    have hbare := IsBare.of_white (isWhite_iff.mpr (Or.inr (isSeparator_iff.mp hc)))
    exact ⟨c, hmem, by rw [hbare.escapedChar]; exact List.mem_singleton_self c⟩

theorem separator_mem_quoted {c : Char} (hc : isSeparator c) (text : String) :
    c ∈ quoted text ↔ c ∈ text.toList := by
  have hquote : c ≠ '"' := by
    rintro rfl
    revert hc
    decide
  simp [quoted, hquote, separator_mem_escaped hc]

/-- A candidate for a key ends before the colon exactly when the key is not simple. -/
theorem isSimpleKey_iff_behind (key : String) (p : Place) :
    isSimpleKey key ↔
      ¬ (p.line < (p.behind (quoted key)).line ∨
        p.index + 1024 < (p.behind (quoted key)).index) := by
  have hline := p.line_behind_eq_iff (quoted key)
  have hle := p.line_le_behind (quoted key)
  have hseparators : (∀ c ∈ quoted key, ¬ isSeparator c) ↔ ∀ c ∈ key.toList, ¬ isSeparator c := by
    constructor
    · intro hall c hmem hc
      exact hall c ((separator_mem_quoted hc key).mpr hmem) hc
    · intro hall c hmem hc
      exact hall c ((separator_mem_quoted hc key).mp hmem) hc
  rw [isSimpleKey_iff, ← hseparators, ← hline, Place.index_behind]
  omega

namespace Lexer

/-- How the lexer stands in the text of a printed value: outside of all blocks, inside so many
brackets, and with no key that must come. -/
structure Stands (s : Lexer) (p : Place) (text : List Char) (depth : Nat) (allowed : Bool)
    (tokens : List Token) : Prop where
  source : s.source = p.located text
  emitted : s.tokens.toList = tokens
  indent : s.indent = -1
  indents : s.indents = []
  depth : s.candidates.length = depth + 1
  optional : ∀ k, some k ∈ s.candidates → k.required = false
  allowed : s.keyAllowed = allowed

theorem initial_stands (text : List Char) :
    Stands (initial (Place.located ⟨0, 0, 0⟩ text)) ⟨0, 0, 0⟩ text 0 true [] where
  source := rfl
  emitted := rfl
  indent := rfl
  indents := rfl
  depth := rfl
  optional := by
    intro k hmem
    simp [initial] at hmem
  allowed := rfl

namespace Stands

variable {s : Lexer} {p : Place} {text rest : List Char} {depth : Nat} {allowed : Bool}
  {tokens : List Token} {c : Char}

theorem inFlow_eq (h : Stands s p text depth allowed tokens) :
    s.inFlow = decide (0 < depth) := by
  rw [inFlow, h.depth]
  simp

/-- A candidate, unless it can no longer be a key. -/
def kept (site : Sited) (candidate : Option KeyCandidate) : Option KeyCandidate :=
  candidate.filter fun k => !expired site k

theorem expireCandidates_eq (h : Stands s p text depth allowed tokens) :
    s.expireCandidates = some (s.withCandidates (s.candidates.map (kept s.source.site))) := by
  have hall (candidates : List (Option KeyCandidate))
      (hoptional : ∀ k, some k ∈ candidates → k.required = false) :
      candidates.mapM (expire s.source.site) = some (candidates.map (kept s.source.site)) := by
    induction candidates with
    | nil => rfl
    | cons candidate others ih =>
        have hothers := ih fun k hmem => hoptional k (List.mem_cons_of_mem _ hmem)
        rw [List.mapM_cons, hothers]
        cases candidate with
        | none => rfl
        | some k =>
            have hk := hoptional k List.mem_cons_self
            by_cases hexpired : expired s.source.site k <;>
              simp [expire, kept, hexpired, hk, Option.filter]
  rw [expireCandidates, hall s.candidates h.optional]
  rfl

theorem unindent_eq (h : Stands s p text depth allowed tokens) (column : Int) :
    s.unindent column = s := by
  rw [unindent]
  split
  · rfl
  · rw [h.indents, closeBlocks, ← h.indents]

theorem withCandidates (h : Stands s p text depth allowed tokens)
    {candidates : List (Option KeyCandidate)} {depth' : Nat}
    (hdepth : candidates.length = depth' + 1)
    (hoptional : ∀ k, some k ∈ candidates → k.required = false) :
    Stands (s.withCandidates candidates) p text depth' allowed tokens :=
  ⟨h.source, h.emitted, h.indent, h.indents, hdepth, hoptional, h.allowed⟩

theorem kept_stands (h : Stands s p text depth allowed tokens) :
    Stands (s.withCandidates (s.candidates.map (kept s.source.site))) p text depth allowed
      tokens := by
  refine h.withCandidates (by rw [List.length_map, h.depth]) ?_
  intro k hmem
  obtain ⟨candidate, hcandidate, hk⟩ := List.mem_map.mp hmem
  obtain ⟨rfl, -⟩ := Option.filter_eq_some_iff.mp hk
  exact h.optional k hcandidate

/-- Nothing stands in front of a token, but candidates may end. -/
theorem settle_eq (h : Stands s p text depth allowed tokens)
    (hnext : ∀ flow, toNextToken flow allowed false (p.located text) =
      (p.located text, allowed)) :
    s.settle = some (s.withCandidates (s.candidates.map (kept s.source.site))) := by
  have hmoved : (s.moveTo (p.located text)).allowKey allowed = s := by
    rw [← h.source, ← h.allowed]
    rfl
  have hnone : toNextToken s.inFlow s.keyAllowed false s.source = (p.located text, allowed) := by
    rw [h.source, h.allowed, hnext]
  simp only [settle, hnone, hmoved, h.expireCandidates_eq, Option.bind_eq_bind, Option.bind_some,
    pure, h.kept_stands.unindent_eq]

theorem exists_candidates (h : Stands s p text depth allowed tokens) :
    ∃ candidate outer, s.candidates = candidate :: outer ∧ outer.length = depth ∧
      ∀ k, some k ∈ outer → k.required = false := by
  have hdepth := h.depth
  have hoptional := h.optional
  cases hcandidates : s.candidates with
  | nil => simp [hcandidates] at hdepth
  | cons candidate outer =>
      rw [hcandidates] at hdepth hoptional
      exact ⟨candidate, outer, rfl, by simpa using hdepth,
        fun k hmem => hoptional k (List.mem_cons_of_mem _ hmem)⟩

theorem dropCandidate (h : Stands s p text depth allowed tokens) :
    ∃ outer, s.candidates.tail = outer ∧ s.dropCandidate = some (s.withCandidates (none :: outer)) ∧
      Stands (s.withCandidates (none :: outer)) p text depth allowed tokens := by
  obtain ⟨candidate, outer, heq, hdepth, houter⟩ := h.exists_candidates
  refine ⟨outer, by rw [heq]; rfl, ?_, ?_⟩
  · cases candidate with
    | none =>
        simp only [Lexer.dropCandidate, heq]
        rw [← heq]
        rfl
    | some k =>
        have hk := h.optional k (by rw [heq]; exact List.mem_cons_self)
        simp [Lexer.dropCandidate, heq, hk]
  · refine h.withCandidates (by rw [List.length_cons, hdepth]) ?_
    intro k hmem
    exact houter k (by simpa using hmem)

/-- Behind a token. -/
theorem emitted_at (h : Stands s p text depth allowed tokens) (q : Place) (more : List Char)
    (allowed' : Bool) (token : Token) :
    Stands (((s.allowKey allowed').moveTo (q.located more)).emit token) q more depth allowed'
      (tokens ++ [token]) where
  source := rfl
  emitted := by
    rw [← h.emitted]
    exact Array.toList_push
  indent := h.indent
  indents := h.indents
  depth := h.depth
  optional := h.optional
  allowed := rfl

/-- Behind a token of one character. -/
theorem passed (h : Stands s p (c :: rest) depth allowed tokens) (hc : IsGraphic c)
    (allowed' : Bool) (token : Token) :
    Stands (((s.allowKey allowed').pass 1).emit token) (p.after c) rest depth allowed'
      (tokens ++ [token]) := by
  have hdrop : s.source.drop 1 = (p.after c).located rest := by
    rw [h.source, Place.located_graphic p hc, List.drop_one, List.tail_cons]
  have hpass : (s.allowKey allowed').pass 1 =
      (s.allowKey allowed').moveTo ((p.after c).located rest) :=
    congrArg (s.allowKey allowed').moveTo hdrop
  rw [hpass]
  exact h.emitted_at (p.after c) rest allowed' token

/-- A key may begin where it is allowed to. -/
theorem noteCandidate (h : Stands s p text depth allowed tokens) :
    ∃ candidates, s.noteCandidate = some (s.withCandidates candidates) ∧
      Stands (s.withCandidates candidates) p text depth allowed tokens ∧
      (allowed → candidates = some ⟨s.tokens.size, s.source.site, false⟩ :: s.candidates.tail) := by
  cases hallowed : allowed with
  | false =>
      refine ⟨s.candidates, ?_, hallowed ▸ h, by simp⟩
      rw [Lexer.noteCandidate, h.allowed, hallowed]
      rfl
  | true =>
      obtain ⟨candidate, outer, heq, hdepth, houter⟩ := h.exists_candidates
      obtain ⟨others, htail, hdrop, -⟩ := h.dropCandidate
      rw [heq, List.tail_cons] at htail
      subst htail
      have hindent : ¬ s.indent = s.column := by
        rw [h.indent]
        omega
      refine ⟨some ⟨s.tokens.size, s.source.site, false⟩ :: outer, ?_, ?_, ?_⟩
      · rw [Lexer.noteCandidate, h.allowed, hallowed, hdrop]
        simp only [if_true, hindent, and_false, decide_false]
        rfl
      · subst hallowed
        refine h.withCandidates (by rw [List.length_cons, hdepth]) ?_
        intro k hmem
        rcases List.mem_cons.mp hmem with heq | hmem
        · rw [Option.some.inj heq]
        · exact houter k hmem
      · intro _
        rw [heq, List.tail_cons]

/-- The character at the head and the one behind it. -/
theorem peek_eq (h : Stands s p (c :: rest) depth allowed tokens) (hc : IsGraphic c) :
    s.source.peek = c ∧ s.source.peekAt 1 = Source.peek ((p.after c).located rest) := by
  rw [h.source, Place.located_graphic p hc]
  exact ⟨rfl, rfl⟩

theorem not_atMarker (h : Stands s p (c :: rest) depth allowed tokens) (hc : IsGraphic c)
    {mark : Char} (hmark : c ≠ mark) : s.source.atMarker mark = false := by
  rw [h.source, Place.located_graphic p hc, Source.atMarker, decide_eq_false_iff_not]
  rintro ⟨-, htake, -⟩
  exact hmark (by simpa using congrArg List.head? htake)

/-- Between tokens the lexer stands where it was, with the candidates that are left. -/
theorem step_eq (h : Stands s p (c :: rest) depth allowed tokens) (hc : IsGraphic c)
    (hhash : c ≠ '#') :
    s.step = (s.withCandidates (s.candidates.map (kept s.source.site))).readToken := by
  have hnext (flow : Bool) :
      toNextToken flow allowed false (p.located (c :: rest)) = (p.located (c :: rest), allowed) := by
    have hmark : c ≠ byteOrderMark := hc.ne_high _ (by decide)
    rw [Place.located_graphic p hc, toNextToken]
    simp [hc.not_break, hc.ne_low ' ' (by decide), hc.ne_low '\t' (by decide), hhash, hmark]
  rw [step, h.settle_eq hnext, Option.bind_some]

/-- How the lexer goes on by one token. -/
def Steps (s : Lexer) (p : Place) (text : List Char) (depth : Nat) (allowed : Bool)
    (tokens : List Token) : Prop :=
  ∃ s', s.step = some (.inr s') ∧ s'.Stands p text depth allowed tokens

section Brackets

variable {token : Token}

theorem openFlow (h : Stands s p (c :: rest) depth allowed tokens) (hc : IsGraphic c) :
    ∃ s', s.openFlow token = some s' ∧
      Stands s' (p.after c) rest (depth + 1) true (tokens ++ [token]) := by
  obtain ⟨candidates, hnote, hnoted, -⟩ := h.noteCandidate
  rw [Lexer.openFlow, hnote]
  refine ⟨_, rfl, ?_⟩
  have hdepth : (none :: candidates).length = depth + 1 + 1 := by
    rw [List.length_cons, ← hnoted.depth]
    rfl
  have hopen : Stands ((s.withCandidates candidates).withCandidates (none :: candidates)) p
      (c :: rest) (depth + 1) allowed tokens := by
    refine hnoted.withCandidates hdepth ?_
    intro k hmem
    have hinner : some k ∈ candidates := by simpa using hmem
    exact hnoted.optional k hinner
  exact hopen.passed hc true token

theorem closeFlow (h : Stands s p (c :: rest) (depth + 1) allowed tokens) (hc : IsGraphic c) :
    ∃ s', s.closeFlow token = some s' ∧
      Stands s' (p.after c) rest depth false (tokens ++ [token]) := by
  obtain ⟨outer, htail, hdrop, hdropped⟩ := h.dropCandidate
  have hflow : (s.withCandidates (none :: outer)).inFlow = true := by
    rw [hdropped.inFlow_eq]
    simp
  rw [Lexer.closeFlow, hdrop]
  refine ⟨_, rfl, ?_⟩
  rw [hflow, if_pos rfl]
  have hclosed : Stands ((s.withCandidates (none :: outer)).withCandidates outer) p (c :: rest)
      depth allowed tokens := by
    refine hdropped.withCandidates ?_ ?_
    · have hdepth : outer.length + 1 = depth + 1 + 1 := hdropped.depth
      omega
    · intro k hmem
      exact hdropped.optional k (List.mem_cons_of_mem _ hmem)
  exact hclosed.passed hc false token

end Brackets

/-- The bracket or brace that begins a collection. -/
theorem step_open (h : Stands s p (c :: rest) depth allowed tokens) {token : Token}
    (hc : c = '[' ∧ token = .flowSequenceStart ∨ c = '\x7b' ∧ token = .flowMappingStart) :
    Steps s (p.after c) rest (depth + 1) true (tokens ++ [token]) := by
  have hgraphic : IsGraphic c := by
    rcases hc with ⟨rfl, -⟩ | ⟨rfl, -⟩ <;> decide
  have hkept := h.kept_stands
  obtain ⟨s', hopen, hstands⟩ := hkept.openFlow hgraphic
  refine ⟨s', ?_, hstands⟩
  rw [h.step_eq hgraphic (by rcases hc with ⟨rfl, -⟩ | ⟨rfl, -⟩ <;> decide)]
  rcases hc with ⟨rfl, rfl⟩ | ⟨rfl, rfl⟩
  · simp [readToken, (hkept.peek_eq hgraphic).1, hkept.not_atMarker hgraphic, hopen, endMark]
  · simp [readToken, (hkept.peek_eq hgraphic).1, hkept.not_atMarker hgraphic, hopen, endMark]

/-- The bracket or brace that ends a collection. -/
theorem step_close (h : Stands s p (c :: rest) (depth + 1) allowed tokens) {token : Token}
    (hc : c = ']' ∧ token = .flowSequenceEnd ∨ c = '\x7d' ∧ token = .flowMappingEnd) :
    Steps s (p.after c) rest depth false (tokens ++ [token]) := by
  have hgraphic : IsGraphic c := by
    rcases hc with ⟨rfl, -⟩ | ⟨rfl, -⟩ <;> decide
  have hkept := h.kept_stands
  obtain ⟨s', hclose, hstands⟩ := hkept.closeFlow hgraphic
  refine ⟨s', ?_, hstands⟩
  rw [h.step_eq hgraphic (by rcases hc with ⟨rfl, -⟩ | ⟨rfl, -⟩ <;> decide)]
  rcases hc with ⟨rfl, rfl⟩ | ⟨rfl, rfl⟩
  · simp [readToken, (hkept.peek_eq hgraphic).1, hkept.not_atMarker hgraphic, hclose, endMark]
  · simp [readToken, (hkept.peek_eq hgraphic).1, hkept.not_atMarker hgraphic, hclose, endMark]

theorem step_comma (h : Stands s p (',' :: rest) depth allowed tokens) :
    Steps s (p.after ',') rest depth true (tokens ++ [.flowEntry]) := by
  have hgraphic : IsGraphic ',' := by decide
  have hkept := h.kept_stands
  obtain ⟨outer, -, hdrop, hdropped⟩ := hkept.dropCandidate
  refine ⟨_, ?_, hdropped.passed hgraphic true .flowEntry⟩
  rw [h.step_eq hgraphic (by decide)]
  simp [readToken, (hkept.peek_eq hgraphic).1, hkept.not_atMarker hgraphic, hdrop, endMark]

theorem scanQuoted_word (p : Place) (word : String) (rest : List Char) :
    scanQuoted false [] .content
        ((p.after '"').located (escaped word.toList ++ '"' :: rest)) =
      (folded? word).map fun read => (read, (p.behind (quoted word)).located rest) := by
  have hcolumn : (p.after '"').column ≠ 0 := by
    rw [Ne, Place.column_after_eq_zero_iff]
    decide
  rw [scanQuoted_content [] _ hcolumn,
    scanQuoted_fold [] Gap.empty _ (by simpa using hcolumn : false ↔ _ = 0), folded?,
    Option.map_map]
  rfl

theorem quotedScalar {word : String}
    (h : Stands s p ('"' :: (escaped word.toList ++ '"' :: rest)) depth allowed tokens) :
    match folded? word with
    | none => s.quotedScalar false = none
    | some read =>
        ∃ s', s.quotedScalar false = some s' ∧
          Stands s' (p.behind (quoted word)) rest depth false (tokens ++ [.scalar read .quoted]) ∧
          (allowed → ∃ outer, s'.candidates =
            some ⟨tokens.length, ⟨'"', p.index, p.line, p.column⟩, false⟩ :: outer) := by
  obtain ⟨candidates, hnote, hnoted, hcandidate⟩ := h.noteCandidate
  have hsource : s.source =
      ⟨'"', p.index, p.line, p.column⟩ ::
        (p.after '"').located (escaped word.toList ++ '"' :: rest) := by
    rw [h.source, Place.located_graphic p (by decide)]
  have hscan : (scanQuoted false [] .content ((s.withCandidates candidates).source.drop 1)) =
      (folded? word).map fun read => (read, (p.behind (quoted word)).located rest) := by
    rw [Lexer.withCandidates, hsource]
    exact scanQuoted_word p word rest
  rw [Lexer.quotedScalar, node, hnote]
  simp only [Option.bind_eq_bind, Option.bind_some, hscan]
  cases folded? word with
  | none => rfl
  | some read =>
      refine ⟨_, rfl, hnoted.emitted_at _ rest false _, ?_⟩
      intro hallowed
      refine ⟨s.candidates.tail, ?_⟩
      have hsize : s.tokens.size = tokens.length := by
        rw [← h.emitted, Array.length_toList]
      rw [← hsize]
      have hsite : s.source.site = ⟨'"', p.index, p.line, p.column⟩ := by
        rw [hsource]
        rfl
      rw [← hsite]
      exact hcandidate hallowed

/-- A text is read as it is folded.  If a key may begin there, it becomes a candidate. -/
theorem step_quoted {word : String} (h : Stands s p (quoted word ++ rest) depth allowed tokens) :
    match folded? word with
    | none => s.step = none
    | some read =>
        ∃ s', s.step = some (.inr s') ∧
          Stands s' (p.behind (quoted word)) rest depth false (tokens ++ [.scalar read .quoted]) ∧
          (allowed → ∃ outer, s'.candidates =
            some ⟨tokens.length, ⟨'"', p.index, p.line, p.column⟩, false⟩ :: outer) := by
  have hquote : IsGraphic '"' := by decide
  have hopen : Stands s p ('"' :: (escaped word.toList ++ '"' :: rest)) depth allowed tokens := by
    simpa [quoted] using h
  have hkept := hopen.kept_stands
  have hstep : s.step = Sum.inr <$>
      (s.withCandidates (s.candidates.map (kept s.source.site))).quotedScalar false := by
    rw [hopen.step_eq hquote (by decide)]
    simp [readToken, (hkept.peek_eq hquote).1, hkept.not_atMarker hquote, endMark]
  have hscalar := hkept.quotedScalar
  cases hfolded : folded? word with
  | none =>
      rw [hfolded] at hscalar
      rw [hstep, hscalar]
      rfl
  | some read =>
      rw [hfolded] at hscalar
      obtain ⟨s', hread, hstands, hcandidate⟩ := hscalar
      refine ⟨s', ?_, hstands, hcandidate⟩
      rw [hstep, hread]
      rfl

/-- A colon behind a text that cannot be a key. -/
theorem valueMark_none {outer : List (Option KeyCandidate)}
    (h : Stands s p (':' :: rest) (depth + 1) allowed tokens)
    (hcandidates : s.candidates = none :: outer) :
    ∃ s', s.valueMark = some s' ∧
      Stands s' (p.after ':') rest (depth + 1) false (tokens ++ [.value]) := by
  have hflow : s.inFlow = true := by
    rw [h.inFlow_eq]
    simp
  refine ⟨_, ?_, h.passed (by decide) false .value⟩
  simp [valueMark, hcandidates, hflow]

/-- A colon behind a text that turns out to be a key. -/
theorem valueMark_some {scalar : Token} {site : Sited} {outer : List (Option KeyCandidate)}
    (h : Stands s p (':' :: rest) (depth + 1) false (tokens ++ [scalar]))
    (hcandidates : s.candidates = some ⟨tokens.length, site, false⟩ :: outer) :
    ∃ s', s.valueMark = some s' ∧
      Stands s' (p.after ':') rest (depth + 1) false (tokens ++ [.key, scalar, .value]) := by
  have hkeyed : Stands
      ⟨s.source, s.tokens.insertIdxIfInBounds tokens.length .key, s.indent, s.indents,
        none :: outer, false⟩ p (':' :: rest) (depth + 1) false (tokens ++ [.key, scalar]) := by
    refine ⟨h.source, ?_, h.indent, h.indents, ?_, ?_, rfl⟩
    · have hinsert (before : List Token) :
          (before ++ [scalar]).insertIdx before.length .key = before ++ [.key, scalar] := by
        induction before with
        | nil => rfl
        | cons first before ih => simpa using ih
      have htokens : s.tokens = (tokens ++ [scalar]).toArray := by
        rw [← h.emitted]
      rw [htokens, List.insertIdxIfInBounds_toArray, hinsert]
    · have hdepth := h.depth
      rw [hcandidates] at hdepth
      simpa using hdepth
    · intro k hmem
      refine h.optional k ?_
      rw [hcandidates]
      exact List.mem_cons_of_mem _ (by simpa using hmem)
  have hflow := hkeyed.inFlow_eq
  refine ⟨_, ?_, by simpa using hkeyed.passed (by decide) false .value⟩
  rw [valueMark, hcandidates]
  simp only [openBlock, hflow]
  rfl

/-- The colon behind a quoted text: the text is a key if it still can be one. -/
theorem step_colon {scalar : Token} {site : Sited} {outer : List (Option KeyCandidate)}
    (h : Stands s p (':' :: rest) (depth + 1) false (tokens ++ [scalar]))
    (hcandidates : s.candidates = some ⟨tokens.length, site, false⟩ :: outer) :
    Steps s (p.after ':') rest (depth + 1) false
      (tokens ++ ((if site.line < p.line ∨ site.index + 1024 < p.index then [] else [.key]) ++
        [scalar, .value])) := by
  have hcolon : IsGraphic ':' := by decide
  have hkept := h.kept_stands
  have hflow := hkept.inFlow_eq
  have hsite : s.source.site = ⟨':', p.index, p.line, p.column⟩ := by
    rw [h.source, Place.located_graphic p hcolon]
    rfl
  have hstep : s.step = Sum.inr <$>
      (s.withCandidates (s.candidates.map (kept s.source.site))).valueMark := by
    rw [h.step_eq hcolon (by decide)]
    simp [readToken, (hkept.peek_eq hcolon).1, hkept.not_atMarker hcolon, endMark, hflow]
  have hleft : (s.withCandidates (s.candidates.map (kept s.source.site))).candidates =
      (if site.line < p.line ∨ site.index + 1024 < p.index then none
        else some ⟨tokens.length, site, false⟩) :: outer.map (kept s.source.site) := by
    rw [Lexer.withCandidates, hcandidates, List.map_cons, kept, hsite]
    by_cases hexpired : site.line < p.line ∨ site.index + 1024 < p.index <;>
      simp [expired, Option.filter, hexpired]
  by_cases hexpired : site.line < p.line ∨ site.index + 1024 < p.index
  · rw [if_pos hexpired] at hleft
    obtain ⟨s', hmark, hstands⟩ := hkept.valueMark_none hleft
    refine ⟨s', by rw [hstep, hmark]; rfl, ?_⟩
    rw [if_pos hexpired]
    simpa using hstands
  · rw [if_neg hexpired] at hleft
    obtain ⟨s', hmark, hstands⟩ := hkept.valueMark_some hleft
    refine ⟨s', by rw [hstep, hmark]; rfl, ?_⟩
    rw [if_neg hexpired]
    exact hstands

/-- A word is read as it is. -/
theorem plainScalar {word : List Char} (h : Stands s p (word ++ rest) depth allowed tokens)
    (hword : ∀ c ∈ word, isWordChar c) (hends : EndsWord (decide (0 < depth)) rest) :
    ∃ s', s.plainScalar = some s' ∧
      Stands s' (p.behind word) rest depth false
        (tokens ++ [.scalar (String.ofList word) .plain]) := by
  obtain ⟨candidates, hnote, hnoted, -⟩ := h.noteCandidate
  rw [Lexer.plainScalar, hnote]
  simp only [Option.bind_eq_bind, Option.bind_some, hnoted.inFlow_eq, hnoted.source,
    scanPlain_word _ [] p hword hends]
  exact ⟨_, rfl, hnoted.emitted_at _ rest false _⟩

theorem step_word {word : List Char} (h : Stands s p (word ++ rest) depth allowed tokens)
    (hword : IsWord word) (hends : EndsWord (decide (0 < depth)) rest) :
    Steps s (p.behind word) rest depth false (tokens ++ [.scalar (String.ofList word) .plain]) := by
  obtain ⟨hall, c, more, hc, heq⟩ := hword
  have hkept := h.kept_stands
  obtain ⟨s', hplain, hstands⟩ := hkept.plainScalar hall hends
  refine ⟨s', ?_, hstands⟩
  have hne {other : Char} (hother : other.isAlphanum = false) : (c = other) = False :=
    eq_false (ne_of_alphanum hc hother)
  rcases heq with rfl | rfl
  · have hgraphic := isGraphic_of_alphanum hc
    rw [List.cons_append] at h hkept
    rw [h.step_eq hgraphic (ne_of_alphanum hc (by decide))]
    simp [readToken, (hkept.peek_eq hgraphic).1, hkept.not_atMarker hgraphic, endMark, hne,
      hplain, isIndicator, hgraphic.not_blankOrEnd]
  · have hgraphic : IsGraphic '-' := by decide
    have hsource : (p.after '-').located (c :: more ++ rest) =
        ⟨c, (p.after '-').index, (p.after '-').line, (p.after '-').column⟩ ::
          ((p.after '-').after c).located (more ++ rest) :=
      Place.located_graphic _ (isGraphic_of_alphanum hc) _
    rw [List.cons_append] at h hkept
    have hnext : (s.withCandidates (s.candidates.map (kept s.source.site))).source.peekAt 1 = c :=
      (hkept.peek_eq hgraphic).2.trans (congrArg Source.peek hsource)
    have hmarker (mark : Char) :
        (s.withCandidates (s.candidates.map (kept s.source.site))).source.atMarker mark = false := by
      rw [hkept.source, Place.located_graphic p hgraphic, hsource, Source.atMarker,
        decide_eq_false_iff_not]
      rintro ⟨-, htake, -⟩
      simp only [List.take_succ_cons, List.map_cons, List.cons.injEq] at htake
      obtain ⟨rfl, heq, -⟩ := htake
      exact ne_of_alphanum hc (by decide) heq
    have hblank := (isGraphic_of_alphanum hc).not_blankOrEnd
    have hspace := (isGraphic_of_alphanum hc).not_blank
    rw [h.step_eq hgraphic (by decide)]
    simp [readToken, (hkept.peek_eq hgraphic).1, hnext, hmarker, hblank, hspace,
      endMark, hplain]

/-- At the end all tokens are there. -/
theorem step_end (h : Stands s p [] 0 allowed tokens) :
    ∃ all, s.step = some (.inl all) ∧ all.toList = tokens := by
  have hnext (flow : Bool) :
      toNextToken flow allowed false (p.located []) = (p.located [], allowed) := by
    rw [Place.located_nil, toNextToken]
    simp [isBreak, endMark, byteOrderMark]
  have hkept := h.kept_stands
  obtain ⟨outer, -, hdrop, hdropped⟩ := hkept.dropCandidate
  have hpeek : (s.withCandidates (s.candidates.map (kept s.source.site))).source.peek = endMark := by
    rw [hkept.source]
    rfl
  refine ⟨s.tokens, ?_, h.emitted⟩
  rw [step, h.settle_eq hnext, Option.bind_some, readToken]
  simp only [hpeek, if_true, hkept.unindent_eq, hdrop]
  rfl

end Stands

end Lexer

end LogForwarding.Yaml
