import LogForwarding.Proofs.Bytes
import LogForwarding.Proofs.Forwarder.Lexer

/-!
A quoted text delimits itself.  Whatever stands behind it, a reader that stops at the first quote
without a backslash reads the text and leaves the rest, and of all literals on one line no other is
read as this text.  So lists of quoted texts can be told from each other.
-/

namespace LogForwarding.Forwarder

/-- Reads a literal behind its opening quote: the text up to the first quote that no backslash
escapes, and what stands behind that quote. -/
def readBody : List Char → Option (List Char × List Char)
  | [] | ['\\'] => none
  | '"' :: rest => some ([], rest)
  | '\\' :: escape :: rest => do
      let value ← Lexer.unescape escape
      let (text, rest) ← readBody rest
      return (value :: text, rest)
  | c :: rest => do
      let (text, rest) ← readBody rest
      return (c :: text, rest)

/-- The text of the literal with which a text begins, and what stands behind the literal. -/
def readLiteral? (text : String) : Option (String × String) :=
  match text.toList with
  | [] => none
  | first :: rest =>
      if first = '"' then
        (readBody rest).map fun (value, rest) => (String.ofList value, String.ofList rest)
      else none

/-- A character that stands in a literal only as an escape. -/
def isBreak (c : Char) : Bool :=
  c ∈ ['\n', '\r', '\t']

/-! ### One character -/

theorem readBody_plain {c : Char} (hquote : c ≠ '"') (hbackslash : c ≠ '\\') (rest : List Char) :
    readBody (c :: rest) = (readBody rest).map fun read => (c :: read.1, read.2) := by
  rw [readBody]
  · cases readBody rest <;> rfl
  · exact fun heq _ => hbackslash heq
  · exact hquote
  · exact fun _ _ heq _ => hbackslash heq

theorem readBody_escape {escape value : Char} (hvalue : Lexer.unescape escape = some value)
    (rest : List Char) :
    readBody ('\\' :: escape :: rest) =
      (readBody rest).map fun read => (value :: read.1, read.2) := by
  rw [readBody, hvalue]
  cases readBody rest <;> rfl

theorem escapedChar_plain {c : Char} (hquote : c ≠ '"') (hbackslash : c ≠ '\\')
    (hbreak : ¬ isBreak c) : escapedChar c = [c] := by
  have hother : c ≠ '\n' ∧ c ≠ '\r' ∧ c ≠ '\t' := by simpa [isBreak] using hbreak
  simp [escapedChar, hbackslash, hquote, hother]

/-- A character stands in a literal as itself or as an escape of its own. -/
theorem escapedChar_cases (c : Char) :
    (∃ escape, escapedChar c = ['\\', escape] ∧ Lexer.unescape escape = some c) ∨
      escapedChar c = [c] ∧ c ≠ '"' ∧ c ≠ '\\' ∧ ¬ isBreak c := by
  by_cases hbackslash : c = '\\'
  · exact Or.inl ⟨'\\', by rw [hbackslash]; rfl, by rw [hbackslash]; rfl⟩
  by_cases hquote : c = '"'
  · exact Or.inl ⟨'"', by rw [hquote]; rfl, by rw [hquote]; rfl⟩
  by_cases hbreak : isBreak c
  · have hc : c = '\n' ∨ c = '\r' ∨ c = '\t' := by simpa [isBreak] using hbreak
    rcases hc with rfl | rfl | rfl
    · exact Or.inl ⟨'n', rfl, rfl⟩
    · exact Or.inl ⟨'r', rfl, rfl⟩
    · exact Or.inl ⟨'t', rfl, rfl⟩
  · exact Or.inr ⟨escapedChar_plain hquote hbackslash hbreak, hquote, hbackslash, hbreak⟩

/-- No two escapes stand for one character. -/
theorem escapedChar_of_unescape {escape value : Char}
    (hvalue : Lexer.unescape escape = some value) : escapedChar value = ['\\', escape] := by
  unfold Lexer.unescape at hvalue
  repeat' split at hvalue
  all_goals cases hvalue
  all_goals simp_all [escapedChar]

theorem readBody_escapedChar (c : Char) (rest : List Char) :
    readBody (escapedChar c ++ rest) = (readBody rest).map fun read => (c :: read.1, read.2) := by
  rcases escapedChar_cases c with ⟨escape, heq, hvalue⟩ | ⟨heq, hquote, hbackslash, -⟩
  · rw [heq]
    exact readBody_escape hvalue rest
  · rw [heq]
    exact readBody_plain hquote hbackslash rest

theorem not_isBreak_of_mem_escapedChar {c d : Char} (hmem : d ∈ escapedChar c) : ¬ isBreak d := by
  rcases escapedChar_cases c with ⟨escape, heq, hvalue⟩ | ⟨heq, -, -, hbreak⟩
  · rw [heq] at hmem
    -- None of the characters behind a backslash is a line break or a tab itself.
    have hescape : ¬ isBreak escape := by
      intro hbreak
      have hc : escape = '\n' ∨ escape = '\r' ∨ escape = '\t' := by simpa [isBreak] using hbreak
      rcases hc with rfl | rfl | rfl <;> cases hvalue
    rcases List.mem_cons.mp hmem with rfl | hlast
    · decide
    · rwa [List.mem_singleton.mp hlast]
  · rw [heq] at hmem
    rwa [List.mem_singleton.mp hmem]

/-! ### Whole literals -/

/-- An escaped text is read up to the quote behind it. -/
theorem readBody_flatMap_escapedChar (text rest : List Char) :
    readBody (text.flatMap escapedChar ++ '"' :: rest) = some (text, rest) := by
  induction text with
  | nil => rfl
  | cons c text ih => rw [List.flatMap_cons, List.append_assoc, readBody_escapedChar, ih]; rfl

/-- What is read without line breaks and tabs is an escaped text. -/
theorem eq_escaped_of_readBody {cs text rest : List Char}
    (hread : readBody cs = some (text, rest)) :
    ∃ inner, cs = inner ++ '"' :: rest ∧
      ((∀ c ∈ inner, ¬ isBreak c) → inner = text.flatMap escapedChar) := by
  fun_induction readBody cs generalizing text with
  | case1 => cases hread
  | case2 => cases hread
  | case3 rest =>
      cases hread
      exact ⟨[], rfl, fun _ => rfl⟩
  | case4 escape following ih =>
      obtain ⟨value, hvalue, hrest⟩ := Option.bind_eq_some_iff.mp hread
      obtain ⟨⟨more, left⟩, hmore, hresult⟩ := Option.bind_eq_some_iff.mp hrest
      cases hresult
      obtain ⟨inner, rfl, hinner⟩ := ih hmore
      refine ⟨'\\' :: escape :: inner, rfl, fun hplain => ?_⟩
      have htail : ∀ c ∈ inner, ¬ isBreak c := fun c hmem =>
        hplain c (List.mem_cons_of_mem _ (List.mem_cons_of_mem _ hmem))
      rw [List.flatMap_cons, escapedChar_of_unescape hvalue, ← hinner htail]
      rfl
  | case5 c following hend hquote hescape ih =>
      obtain ⟨⟨more, left⟩, hmore, hresult⟩ := Option.bind_eq_some_iff.mp hread
      cases hresult
      obtain ⟨inner, rfl, hinner⟩ := ih hmore
      refine ⟨c :: inner, rfl, fun hplain => ?_⟩
      have hbackslash : c ≠ '\\' := by
        rintro rfl
        cases inner with
        | nil => exact hescape _ _ rfl rfl
        | cons escape inner => exact hescape _ _ rfl rfl
      have hself := escapedChar_plain hquote hbackslash (hplain c List.mem_cons_self)
      rw [List.flatMap_cons, hself, ← hinner fun d hmem => hplain d (List.mem_cons_of_mem c hmem)]
      rfl

theorem toList_literal (value : String) :
    (literal value).toList = '"' :: value.toList.flatMap escapedChar ++ ['"'] :=
  String.toList_ofList

/-- A literal is read whatever stands behind it. -/
theorem readLiteral?_literal_append (value rest : String) :
    readLiteral? (literal value ++ rest) = some (value, rest) := by
  have hchars : (literal value ++ rest).toList =
      '"' :: (value.toList.flatMap escapedChar ++ '"' :: rest.toList) := by
    rw [String.toList_append, toList_literal]
    simp
  rw [readLiteral?, hchars]
  simp [readBody_flatMap_escapedChar]

/-- A literal and what stands behind it are known from both together. -/
theorem literal_append_inj {value other rest rest' : String}
    (heq : literal value ++ rest = literal other ++ rest') : value = other ∧ rest = rest' := by
  have hread := readLiteral?_literal_append value rest
  rw [heq, readLiteral?_literal_append] at hread
  cases hread
  exact ⟨rfl, rfl⟩

theorem not_isBreak_of_mem_literal {value : String} {c : Char} (hmem : c ∈ (literal value).toList) :
    ¬ isBreak c := by
  rw [toList_literal, List.mem_append, List.mem_cons, List.mem_flatMap] at hmem
  rcases hmem with (rfl | ⟨d, -, hinner⟩) | hlast
  · decide
  · exact not_isBreak_of_mem_escapedChar hinner
  · rw [List.mem_singleton.mp hlast]
    decide

/-- What is read as a literal on one line is the literal of what is read. -/
theorem eq_literal_of_readLiteral? {text value rest : String}
    (hread : readLiteral? text = some (value, rest)) :
    ∃ spelled, text = spelled ++ rest ∧
      ((∀ c ∈ spelled.toList, ¬ isBreak c) → spelled = literal value) := by
  rw [readLiteral?] at hread
  cases htext : text.toList with
  | nil =>
      rw [htext] at hread
      cases hread
  | cons first cs =>
      rw [htext] at hread
      dsimp only at hread
      split at hread
      case isFalse => cases hread
      case isTrue hquote =>
        obtain ⟨⟨inner, left⟩, hbody, hresult⟩ := Option.map_eq_some_iff.mp hread
        cases hresult
        obtain ⟨spelled, rfl, hspelled⟩ := eq_escaped_of_readBody hbody
        refine ⟨String.ofList ('"' :: spelled ++ ['"']), ?_, fun hplain => ?_⟩
        · apply String.toList_inj.mp
          simp [htext, hquote]
        · have hescaped := hspelled fun c hmem => hplain c (by simp [hmem])
          rw [hescaped, literal, String.toList_ofList]

/-- Between the bytes of its quotes a literal has those of the escaped text. -/
theorem ofText_literalBody (value : String) :
    Bytes.ofText (literalBody value) =
      (Bytes.ofText (literal value)).extract 1 ((Bytes.ofText (literal value)).length - 1) := by
  have hquote : Bytes.ofText "\"" = [34] := by decide +kernel
  rw [literal_eq, Bytes.ofText_append, Bytes.ofText_append, hquote]
  simp [List.extract]

/-! ### Lists -/

/-- Behind the first literal of a list either the list ends or a comma stands. -/
theorem intercalate_literal_cons (text : String) (texts : List String) (rest : String) :
    ",".intercalate ((text :: texts).map literal) ++ rest =
      literal text ++ (if texts = [] then rest
        else "," ++ (",".intercalate (texts.map literal) ++ rest)) := by
  cases texts with
  | nil => simp
  | cons next texts => simp [String.append_assoc]

theorem intercalate_literal_inj {texts others : List String} {rest rest' : String}
    (heq : ",".intercalate (texts.map literal) ++ ("]" ++ rest) =
      ",".intercalate (others.map literal) ++ ("]" ++ rest')) :
    texts = others ∧ rest = rest' := by
  -- A quote, a comma and a bracket differ, so both lists go on or both end.
  induction texts generalizing others with
  | nil =>
      cases others with
      | nil => exact ⟨rfl, by simpa using heq⟩
      | cons other others =>
          rw [intercalate_literal_cons] at heq
          have hchars := congrArg String.toList heq
          simp [toList_literal] at hchars
  | cons text texts ih =>
      cases others with
      | nil =>
          rw [intercalate_literal_cons] at heq
          have hchars := congrArg String.toList heq
          simp [toList_literal] at hchars
      | cons other others =>
          rw [intercalate_literal_cons, intercalate_literal_cons] at heq
          obtain ⟨rfl, hbehind⟩ := literal_append_inj heq
          split_ifs at hbehind with htexts hothers hothers
          · exact ⟨by rw [htexts, hothers], (String.append_right_inj "]").mp hbehind⟩
          · have hchars := congrArg String.toList hbehind
            simp at hchars
          · have hchars := congrArg String.toList hbehind
            simp at hchars
          · obtain ⟨rfl, hrest⟩ := ih ((String.append_right_inj ",").mp hbehind)
            exact ⟨rfl, hrest⟩

/-- A list of literals and what stands behind it are known from both together. -/
theorem literalList_append_inj {texts others : List String} {rest rest' : String}
    (heq : literalList texts ++ rest = literalList others ++ rest') :
    texts = others ∧ rest = rest' := by
  simp only [literalList, String.append_assoc] at heq
  exact intercalate_literal_inj ((String.append_right_inj "[").mp heq)

/-- A quoted text is read back by a reader of literals, which leaves what stands behind it.  It
stands on one line, and its quotes enclose the escaped text, byte for byte.  Every other spelling that
is read as this text has a line break or a tab in it.  Lists of quoted texts are known from what they
are written as. -/
theorem literal_delimits_itself (value rest : String) :
    readLiteral? (literal value ++ rest) = some (value, rest) ∧
      ('\n' ∉ (literal value).toList ∧ '\r' ∉ (literal value).toList ∧
        '\t' ∉ (literal value).toList) ∧
      "\"" ++ literalBody value ++ "\"" = literal value ∧
      Bytes.ofText (literalBody value) =
        (Bytes.ofText (literal value)).extract 1 ((Bytes.ofText (literal value)).length - 1) ∧
      (∀ text, readLiteral? text = some (value, rest) → ∃ spelled, text = spelled ++ rest ∧
        ((∀ c ∈ spelled.toList, ¬ isBreak c) → spelled = literal value)) ∧
      Function.Injective literalList := by
  refine ⟨readLiteral?_literal_append value rest, ?_, (literal_eq value).symm,
    ofText_literalBody value, fun text hread => eq_literal_of_readLiteral? hread, ?_⟩
  · exact ⟨fun hmem => not_isBreak_of_mem_literal hmem (by decide),
      fun hmem => not_isBreak_of_mem_literal hmem (by decide),
      fun hmem => not_isBreak_of_mem_literal hmem (by decide)⟩
  · intro texts others heq
    exact (literalList_append_inj (congrArg (· ++ "") heq)).1

/-- A text that ends in backslashes and is followed by a quote, and two lists that would be the same
without escapes. -/
theorem sample_delimits_itself :
    readLiteral? (literal "C:\\\"\\" ++ "\"\\") = some ("C:\\\"\\", "\"\\") ∧
      (∃ spelled, "\"a\\\\\\n\"\"" = spelled ++ "\"" ∧ spelled = literal "a\\\n") ∧
      literalList ["a\",\"b"] ≠ literalList ["a", "b"] := by
  obtain ⟨hread, -, -, -, -, hlists⟩ := literal_delimits_itself "C:\\\"\\" "\"\\"
  obtain ⟨-, -, -, -, hspelled, -⟩ := literal_delimits_itself "a\\\n" "\""
  obtain ⟨spelled, htext, hplain⟩ := hspelled "\"a\\\\\\n\"\"" (by decide +kernel)
  refine ⟨hread, ⟨spelled, htext, hplain ?_⟩, fun heq => absurd (hlists heq) (by decide)⟩
  have hline : "\"a\\\\\\n\"\"".toList.any isBreak = false := by decide +kernel
  rw [htext, String.toList_append, List.any_append, Bool.or_eq_false_iff] at hline
  exact List.any_eq_false.mp hline.1

end LogForwarding.Forwarder
