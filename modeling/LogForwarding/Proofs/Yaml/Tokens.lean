import LogForwarding.Proofs.Yaml.Number
import LogForwarding.Proofs.Yaml.Scanning

/-!
A printed value is read as its tokens, or not at all if one of its texts cannot be read.
-/

namespace LogForwarding

open Yaml

/-- The tokens of one part and those of the next, if both can be read. -/
def joined (first next : Option (List Token)) : Option (List Token) :=
  first.bind fun tokens => next.map (tokens ++ ·)

/-- The tokens of a key with its colon. -/
def keyTokens? (key : String) : Option (List Token) :=
  (folded? key).map (keyTokens key)

namespace Json

mutual

/-- The tokens that a printed value is read as. -/
def tokens? : Json → Option (List Token)
  | .null => some [.scalar (print .null) .plain]
  | .bool value => some [.scalar (print (.bool value)) .plain]
  | .int value => some [.scalar (print (.int value)) .plain]
  | .float value => some [.scalar (print (.float value)) .plain]
  | .str text => (folded? text).map fun read => [.scalar read .quoted]
  | .arr [] => joined (some [.flowSequenceStart]) (some [.flowSequenceEnd])
  | .arr (item :: rest) =>
      joined (some [.flowSequenceStart]) (joined (tokens? item) (itemTokens? rest))
  | .obj [] => joined (some [.flowMappingStart]) (some [.flowMappingEnd])
  | .obj ((key, member) :: rest) =>
      joined (some [.flowMappingStart])
        (joined (keyTokens? key) (joined (tokens? member) (memberTokens? rest)))

/-- The tokens of the items behind the first one, and of the closing bracket. -/
def itemTokens? : List Json → Option (List Token)
  | [] => some [.flowSequenceEnd]
  | item :: rest => joined (some [.flowEntry]) (joined (tokens? item) (itemTokens? rest))

/-- The tokens of the members behind the first one, and of the closing brace. -/
def memberTokens? : List (String × Json) → Option (List Token)
  | [] => some [.flowMappingEnd]
  | (key, member) :: rest =>
      joined (some [.flowEntry])
        (joined (keyTokens? key) (joined (tokens? member) (memberTokens? rest)))

end

end Json

namespace Yaml

namespace Lexer

variable {s s' : Lexer} {p q : Place} {text rest : List Char} {depth : Nat} {allowed : Bool}
  {before tokens : List Token}

/-- The lexer goes on by one token. -/
def Advances (s s' : Lexer) : Prop :=
  s.step = some (.inr s') ∧ s'.source.length < s.source.length

/-- What becomes of a lexer that reads the text of some tokens: it stands behind them, or it is
stuck. -/
def Reads (s : Lexer) (tokens? : Option (List Token)) (q : Place) (rest : List Char) (depth : Nat)
    (allowed : Bool) (before : List Token) : Prop :=
  match tokens? with
  | none => ∃ s', Relation.ReflTransGen Advances s s' ∧ s'.step = none
  | some tokens =>
      ∃ s', Relation.ReflTransGen Advances s s' ∧
        s'.Stands q rest depth allowed (before ++ tokens)

theorem run_of_advances (hadvances : Relation.ReflTransGen Advances s s') {fuel : Nat}
    (hfuel : s.source.length < fuel) :
    ∃ fuel', s'.source.length < fuel' ∧ run fuel s = run fuel' s' := by
  induction hadvances using Relation.ReflTransGen.head_induction_on generalizing fuel with
  | refl => exact ⟨fuel, hfuel, rfl⟩
  | head hstep _ ih =>
      obtain ⟨hnext, hshorter⟩ := hstep
      cases fuel with
      | zero => omega
      | succ fuel =>
          obtain ⟨fuel', hfuel', heq⟩ := @ih fuel (by omega)
          refine ⟨fuel', hfuel', ?_⟩
          rw [run, hnext]
          exact heq

/-- One step that passes some characters. -/
theorem Stands.advances (word : List Char) {tokens' : List Token} {depth' : Nat} {allowed' : Bool}
    (h : Stands s p (word ++ rest) depth allowed before) (hclean : ∀ c ∈ word, 0x20 ≤ c.toNat)
    (hword : word ≠ []) (hstep : s.step = some (.inr s'))
    (hstands : Stands s' (p.behind word) rest depth' allowed' tokens') : Advances s s' := by
  refine ⟨hstep, ?_⟩
  have hlength := List.length_pos_iff.mpr hword
  rw [h.source, hstands.source, Place.length_located_append p hclean]
  omega

theorem Stands.reads (word : List Char) {depth' : Nat} {allowed' : Bool}
    (h : Stands s p (word ++ rest) depth allowed before) (hclean : ∀ c ∈ word, 0x20 ≤ c.toNat)
    (hword : word ≠ [])
    (hsteps : Stands.Steps s (p.behind word) rest depth' allowed' (before ++ tokens)) :
    Reads s (some tokens) (p.behind word) rest depth' allowed' before := by
  obtain ⟨s', hstep, hstands⟩ := hsteps
  exact ⟨s', .single (h.advances word hclean hword hstep hstands), hstands⟩

theorem Reads.trans {first next : Option (List Token)} {depth' : Nat} {allowed' : Bool}
    {q' : Place} {rest' : List Char}
    (hfirst : Reads s first q rest depth allowed before)
    (hnext : ∀ s' tokens, s'.Stands q rest depth allowed (before ++ tokens) →
      Reads s' next q' rest' depth' allowed' (before ++ tokens)) :
    Reads s (joined first next) q' rest' depth' allowed' before := by
  cases first with
  | none => exact hfirst
  | some tokens =>
      obtain ⟨s₁, hreach, hstands⟩ := hfirst
      have hrest := hnext s₁ tokens hstands
      cases next with
      | none =>
          obtain ⟨s₂, hmore, hstuck⟩ := hrest
          exact ⟨s₂, hreach.trans hmore, hstuck⟩
      | some others =>
          obtain ⟨s₂, hmore, hthere⟩ := hrest
          exact ⟨s₂, hreach.trans hmore, by rwa [List.append_assoc] at hthere⟩

/-- A mark of one character. -/
theorem Stands.reads_mark {c : Char} {depth' : Nat} {allowed' : Bool}
    (h : Stands s p (c :: rest) depth allowed before) (hc : IsGraphic c)
    (hsteps : Stands.Steps s (p.after c) rest depth' allowed' (before ++ tokens)) :
    Reads s (some tokens) (p.after c) rest depth' allowed' before :=
  Stands.reads [c] h (by simpa using Nat.le_of_lt hc.1) (List.cons_ne_nil c []) hsteps

theorem Stands.reads_text {word : String}
    (h : Stands s p (quoted word ++ rest) depth allowed before) :
    Reads s ((folded? word).map fun read => [.scalar read .quoted]) (p.behind (quoted word)) rest
      depth false before := by
  have hstep := h.step_quoted
  cases hfolded : folded? word with
  | none =>
      rw [hfolded] at hstep
      exact ⟨s, .refl, hstep⟩
  | some read =>
      rw [hfolded] at hstep
      obtain ⟨s', hstep, hstands, -⟩ := hstep
      exact h.reads (quoted word) (clean_quoted word) (List.cons_ne_nil _ _) ⟨s', hstep, hstands⟩

/-- A key, where one may stand, with its colon. -/
theorem Stands.reads_key {key : String}
    (h : Stands s p (quoted key ++ ':' :: rest) (depth + 1) true before) :
    Reads s (keyTokens? key) (p.behind (quoted key ++ [':'])) rest (depth + 1) false before := by
  have hstep := h.step_quoted
  rw [keyTokens?]
  cases hfolded : folded? key with
  | none =>
      rw [hfolded] at hstep
      exact ⟨s, .refl, hstep⟩
  | some read =>
      rw [hfolded] at hstep
      obtain ⟨s₁, hstep, hstands, hcandidate⟩ := hstep
      obtain ⟨outer, hcandidates⟩ := hcandidate rfl
      have hfirst : Advances s s₁ :=
        h.advances (quoted key) (clean_quoted key) (List.cons_ne_nil _ _) hstep hstands
      obtain ⟨s₂, hcolon, hthere⟩ := hstands.step_colon hcandidates
      have hsecond : Advances s₁ s₂ :=
        Stands.advances [':'] hstands (by simp) (List.cons_ne_nil _ _) hcolon hthere
      refine ⟨s₂, .tail (.single hfirst) hsecond, ?_⟩
      have htokens : (if p.line < (p.behind (quoted key)).line ∨
          p.index + 1024 < (p.behind (quoted key)).index then [] else [Token.key]) =
            if isSimpleKey key then [Token.key] else [] := by
        by_cases hsimple : isSimpleKey key
        · rw [if_pos hsimple, if_neg ((isSimpleKey_iff_behind key p).mp hsimple)]
        · have hlate := Decidable.not_not.mp (mt (isSimpleKey_iff_behind key p).mpr hsimple)
          rw [if_neg hsimple, if_pos hlate]
      rw [htokens] at hthere
      rw [Place.behind_append]
      exact hthere

theorem Stands.reads_word {word : List Char}
    (h : Stands s p (word ++ rest) depth allowed before) (hword : IsWord word)
    (hends : EndsWord (decide (0 < depth)) rest) :
    Reads s (some [.scalar (String.ofList word) .plain]) (p.behind word) rest depth false
      before := by
  have hclean : ∀ c ∈ word, 0x20 ≤ c.toNat := by
    intro c hmem
    exact Nat.le_of_lt (isGraphic_of_word (hword.1 c hmem)).1
  have hne : word ≠ [] := by
    obtain ⟨-, c, more, -, rfl | rfl⟩ := hword <;> exact List.cons_ne_nil _ _
  exact h.reads word hclean hne (h.step_word hword hends)

/-- Something that ends a word stands behind each item. -/
theorem endsWord_printItems (items : List Json) (rest : List Char) :
    EndsWord true ((Json.printItems items).toList ++ rest) := by
  refine Or.inr ⟨rfl, ?_⟩
  cases items with
  | nil => exact ⟨']', rest, rfl, by decide⟩
  | cons item items =>
      rw [Json.toList_printItems_cons, List.cons_append]
      exact ⟨',', _, rfl, by decide⟩

theorem endsWord_printMembers (members : List (String × Json)) (rest : List Char) :
    EndsWord true ((Json.printMembers members).toList ++ rest) := by
  refine Or.inr ⟨rfl, ?_⟩
  cases members with
  | nil => exact ⟨'\x7d', rest, rfl, by decide⟩
  | cons entry members =>
      rw [Json.toList_printMembers_cons, List.cons_append]
      exact ⟨',', _, rfl, by decide⟩

theorem Stands.reads_scalar {word : String}
    (h : Stands s p (word.toList ++ rest) depth allowed before) (hword : IsWord word.toList)
    (hends : EndsWord (decide (0 < depth)) rest) :
    Reads s (some [.scalar word .plain]) (p.behind word.toList) rest depth false before := by
  have hread := h.reads_word hword hends
  rwa [String.ofList_toList] at hread

mutual

theorem reads_value : ∀ (value : Json) {s : Lexer} {p : Place} {rest : List Char} {depth : Nat}
    {allowed : Bool} {before : List Token},
    Stands s p (value.print.toList ++ rest) depth allowed before →
    EndsWord (decide (0 < depth)) rest →
    Reads s value.tokens? (p.behind value.print.toList) rest depth false before
  | .null, s, p, rest, depth, allowed, before, h, hends =>
      h.reads_scalar ⟨List.all_eq_true.mp rfl, 'n', "ull".toList, by decide, Or.inl rfl⟩ hends
  | .bool true, s, p, rest, depth, allowed, before, h, hends =>
      h.reads_scalar ⟨List.all_eq_true.mp rfl, 't', "rue".toList, by decide, Or.inl rfl⟩ hends
  | .bool false, s, p, rest, depth, allowed, before, h, hends =>
      h.reads_scalar ⟨List.all_eq_true.mp rfl, 'f', "alse".toList, by decide, Or.inl rfl⟩ hends
  | .int n, s, p, rest, depth, allowed, before, h, hends => h.reads_scalar (isWord_int n) hends
  | .float x, s, p, rest, depth, allowed, before, h, hends => h.reads_scalar (isWord_float x) hends
  | .str text, s, p, rest, depth, allowed, before, h, hends => by
      simp only [Json.print, toList_quotedText] at h ⊢
      exact h.reads_text
  | .arr [], s, p, rest, depth, allowed, before, h, hends => by
      have hopen := h.reads_mark (by decide) (h.step_open (Or.inl ⟨rfl, rfl⟩))
      refine hopen.trans fun s₁ tokens₁ h₁ => ?_
      exact h₁.reads_mark (by decide) (h₁.step_close (Or.inl ⟨rfl, rfl⟩))
  | .arr (item :: items), s, p, rest, depth, allowed, before, h, hends => by
      rw [Json.toList_print_arr, List.cons_append, List.append_assoc] at h
      rw [Json.toList_print_arr, Place.behind_cons, Place.behind_append]
      have hopen := h.reads_mark (by decide) (h.step_open (Or.inl ⟨rfl, rfl⟩))
      refine hopen.trans fun s₁ tokens₁ h₁ => ?_
      refine (reads_value item h₁ ?_).trans fun s₂ tokens₂ h₂ => reads_items items h₂
      simpa using endsWord_printItems items rest
  | .obj [], s, p, rest, depth, allowed, before, h, hends => by
      have hopen := h.reads_mark (by decide) (h.step_open (Or.inr ⟨rfl, rfl⟩))
      refine hopen.trans fun s₁ tokens₁ h₁ => ?_
      exact h₁.reads_mark (by decide) (h₁.step_close (Or.inr ⟨rfl, rfl⟩))
  | .obj ((key, member) :: members), s, p, rest, depth, allowed, before, h, hends => by
      rw [Json.toList_print_obj, toList_quotedText] at h ⊢
      simp only [List.cons_append, List.append_assoc] at h
      have hopen := h.reads_mark (by decide) (h.step_open (Or.inr ⟨rfl, rfl⟩))
      have hplace : p.behind ('\x7b' :: (quoted key ++ ':' :: (member.print.toList ++
          (Json.printMembers members).toList))) =
          (((p.after '\x7b').behind (quoted key ++ [':'])).behind member.print.toList).behind
            (Json.printMembers members).toList := by
        simp
      rw [hplace]
      refine hopen.trans fun s₁ tokens₁ h₁ => ?_
      refine h₁.reads_key.trans fun s₂ tokens₂ h₂ => ?_
      refine (reads_value member h₂ ?_).trans fun s₃ tokens₃ h₃ => reads_members members h₃
      simpa using endsWord_printMembers members rest

theorem reads_items : ∀ (items : List Json) {s : Lexer} {p : Place} {rest : List Char}
    {depth : Nat} {before : List Token},
    Stands s p ((Json.printItems items).toList ++ rest) (depth + 1) false before →
    Reads s (Json.itemTokens? items) (p.behind (Json.printItems items).toList) rest depth false
      before
  | [], s, p, rest, depth, before, h =>
      h.reads_mark (by decide) (h.step_close (Or.inl ⟨rfl, rfl⟩))
  | item :: items, s, p, rest, depth, before, h => by
      rw [Json.toList_printItems_cons, List.cons_append, List.append_assoc] at h
      rw [Json.toList_printItems_cons, Place.behind_cons, Place.behind_append]
      have hcomma := h.reads_mark (by decide) h.step_comma
      refine hcomma.trans fun s₁ tokens₁ h₁ => ?_
      refine (reads_value item h₁ ?_).trans fun s₂ tokens₂ h₂ => reads_items items h₂
      simpa using endsWord_printItems items rest

theorem reads_members : ∀ (members : List (String × Json)) {s : Lexer} {p : Place}
    {rest : List Char} {depth : Nat} {before : List Token},
    Stands s p ((Json.printMembers members).toList ++ rest) (depth + 1) false before →
    Reads s (Json.memberTokens? members) (p.behind (Json.printMembers members).toList) rest depth
      false before
  | [], s, p, rest, depth, before, h =>
      h.reads_mark (by decide) (h.step_close (Or.inr ⟨rfl, rfl⟩))
  | (key, member) :: members, s, p, rest, depth, before, h => by
      rw [Json.toList_printMembers_cons, toList_quotedText] at h ⊢
      simp only [List.cons_append, List.append_assoc] at h
      have hcomma := h.reads_mark (by decide) h.step_comma
      have hplace : p.behind (',' :: (quoted key ++ ':' :: (member.print.toList ++
          (Json.printMembers members).toList))) =
          (((p.after ',').behind (quoted key ++ [':'])).behind member.print.toList).behind
            (Json.printMembers members).toList := by
        simp
      rw [hplace]
      refine hcomma.trans fun s₁ tokens₁ h₁ => ?_
      refine h₁.reads_key.trans fun s₂ tokens₂ h₂ => ?_
      refine (reads_value member h₂ ?_).trans fun s₃ tokens₃ h₃ => reads_members members h₃
      simpa using endsWord_printMembers members rest

end

end Lexer

/-- The tokens of a printed value. -/
theorem tokens_located (value : Json) :
    Token.ofSource? (Place.located ⟨0, 0, 0⟩ value.print.toList) = value.tokens? := by
  have hstart := Lexer.initial_stands (value.print.toList ++ [])
  have hreads := Lexer.reads_value value hstart (Or.inl rfl)
  rw [List.append_nil] at hreads
  have hfuel := Nat.lt_succ_self (Place.located ⟨0, 0, 0⟩ value.print.toList).length
  rw [Token.ofSource?]
  cases htokens : value.tokens? with
  | none =>
      rw [htokens] at hreads
      obtain ⟨s', hreach, hstuck⟩ := hreads
      obtain ⟨fuel, hleft, heq⟩ := Lexer.run_of_advances hreach hfuel
      obtain ⟨fuel, rfl⟩ := Nat.exists_eq_add_of_lt hleft
      rw [heq, Lexer.run, hstuck]
      rfl
  | some tokens =>
      rw [htokens] at hreads
      obtain ⟨s', hreach, hstands⟩ := hreads
      obtain ⟨all, hstep, hall⟩ := hstands.step_end
      obtain ⟨fuel, hleft, heq⟩ := Lexer.run_of_advances hreach hfuel
      obtain ⟨fuel, rfl⟩ := Nat.exists_eq_add_of_lt hleft
      rw [heq, Lexer.run, hstep]
      simpa using hall

end Yaml

end LogForwarding
