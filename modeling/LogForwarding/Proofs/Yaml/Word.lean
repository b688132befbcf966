import LogForwarding.Proofs.Yaml.Folding
import LogForwarding.Yaml.Token.Plain

/-!
Words that are written without quotes: numbers and the names of a few values.  They hold none of
the characters that mean something to a YAML reader.
-/

namespace LogForwarding.Yaml

/-- A character of a word that is written without quotes. -/
def isWordChar (c : Char) : Bool :=
  c.isAlphanum ∨ c ∈ ['-', '+', '.']

theorem isGraphic_of_alphanum {c : Char} (hc : c.isAlphanum) : IsGraphic c := by
  have hrange : (('A' ≤ c ∧ c ≤ 'Z') ∨ ('a' ≤ c ∧ c ≤ 'z')) ∨ ('0' ≤ c ∧ c ≤ '9') := by
    rcases Bool.or_eq_true_iff.mp hc with hletter | hdigit
    · rcases Bool.or_eq_true_iff.mp hletter with hupper | hlower
      · exact Or.inl (Or.inl (of_decide_eq_true hupper))
      · obtain ⟨hlow, hhigh⟩ := Bool.and_eq_true_iff.mp hlower
        exact Or.inl (Or.inr ⟨of_decide_eq_true hlow, of_decide_eq_true hhigh⟩)
    · obtain ⟨hlow, hhigh⟩ := Bool.and_eq_true_iff.mp hdigit
      exact Or.inr ⟨of_decide_eq_true hlow, of_decide_eq_true hhigh⟩
  change ((65 ≤ c.toNat ∧ c.toNat ≤ 90) ∨ (97 ≤ c.toNat ∧ c.toNat ≤ 122)) ∨
    (48 ≤ c.toNat ∧ c.toNat ≤ 57) at hrange
  rw [IsGraphic]
  omega

theorem ne_of_alphanum {c other : Char} (hc : c.isAlphanum) (hother : other.isAlphanum = false) :
    c ≠ other := by
  rintro rfl
  rw [hc] at hother
  cases hother

theorem isGraphic_of_word {c : Char} (hc : isWordChar c) : IsGraphic c := by
  simp only [isWordChar, List.mem_cons, List.not_mem_nil, or_false, decide_eq_true_eq] at hc
  rcases hc with hc | rfl | rfl | rfl
  · exact isGraphic_of_alphanum hc
  all_goals decide

theorem ne_of_word {c other : Char} (hc : isWordChar c) (hother : isWordChar other = false) :
    c ≠ other := by
  rintro rfl
  rw [hc] at hother
  cases hother

/-- What stands behind a word: nothing, or in brackets a mark that ends it. -/
def EndsWord (flow : Bool) (rest : List Char) : Prop :=
  rest = [] ∨ flow ∧ ∃ c more, rest = c :: more ∧ c ∈ [',', ']', '\x7d']

theorem scanPlain_end {flow : Bool} (indent : Int) (seen : List Char) (p : Place)
    {rest : List Char} (hends : EndsWord flow rest) :
    scanPlain flow indent seen Gap.empty (p.located rest) =
      some ⟨String.ofList seen.reverse, false, p.located rest⟩ := by
  rcases hends with rfl | ⟨hflow, c, more, rfl, hc⟩
  · rw [Place.located_nil, scanPlain]
    simp [isBlank, isBreak, endMark, Gap.empty]
  · have hgraphic : IsGraphic c := by
      simp only [List.mem_cons, List.not_mem_nil, or_false] at hc
      rcases hc with rfl | rfl | rfl <;> decide
    have hindicator : isFlowIndicator c := by
      simp only [List.mem_cons, List.not_mem_nil, or_false] at hc
      rcases hc with rfl | rfl | rfl <;> decide
    have hcolon : c ≠ ':' := by
      rintro rfl
      revert hc
      decide
    rw [Place.located_graphic p hgraphic, scanPlain]
    simp [hgraphic.not_blank, hgraphic.not_break, hgraphic.ne_endMark, hflow, hindicator, hcolon,
      Gap.empty]

theorem scanPlain_word {flow : Bool} (indent : Int) (seen : List Char) (p : Place)
    {word rest : List Char} (hword : ∀ c ∈ word, isWordChar c) (hends : EndsWord flow rest) :
    scanPlain flow indent seen Gap.empty (p.located (word ++ rest)) =
      some ⟨String.ofList (seen.reverse ++ word), false, (p.behind word).located rest⟩ := by
  induction word generalizing seen p with
  | nil =>
      rw [List.nil_append, List.append_nil]
      exact scanPlain_end indent seen p hends
  | cons c word ih =>
      obtain ⟨hc, hothers⟩ := List.forall_mem_cons.mp hword
      have hgraphic := isGraphic_of_word hc
      have hcolon : c ≠ ':' := ne_of_word hc (by decide)
      have hindicator : isFlowIndicator c = false := by
        simp [isFlowIndicator, ne_of_word hc (by decide : isWordChar ',' = false),
          ne_of_word hc (by decide : isWordChar '[' = false),
          ne_of_word hc (by decide : isWordChar ']' = false),
          ne_of_word hc (by decide : isWordChar '\x7b' = false),
          ne_of_word hc (by decide : isWordChar '\x7d' = false)]
      have hrest := ih (c :: seen) (p.after c) hothers
      rw [List.cons_append, Place.located_graphic p hgraphic, scanPlain]
      simp only [Gap.empty] at hrest
      simp [hgraphic.not_blank, hgraphic.not_break, hgraphic.ne_endMark, hindicator, hcolon,
        Gap.empty, Gap.foldedReversed, hrest]

/-- A word that is written without quotes.  It begins with a letter or a digit, or with a hyphen in
front of one. -/
def IsWord (word : List Char) : Prop :=
  (∀ c ∈ word, isWordChar c) ∧
    ∃ c more, c.isAlphanum ∧ (word = c :: more ∨ word = '-' :: c :: more)

end LogForwarding.Yaml
