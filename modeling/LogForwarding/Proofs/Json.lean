import LogForwarding.Json.Reader
import LogForwarding.Proofs.Schema
import LogForwarding.Proofs.Yaml.Number
import LogForwarding.Proofs.Yaml.Folding

/-!
A JSON value is read back from its text.  Numbers with a fraction are left out, for the reader rounds
them twice.
-/

namespace LogForwarding.Json

/-- A value that its text tells exactly: integers fit a word, no number has a fraction, and the
members of an object are in order. -/
inductive Exact : Json → Prop where
  | null : Exact .null
  | bool (value : Bool) : Exact (.bool value)
  | int {value : Int} (hfits : Yaml.fitsWord value) : Exact (.int value)
  | str (value : String) : Exact (.str value)
  | arr {items : List Json} (hitems : ∀ item ∈ items, Exact item) : Exact (.arr items)
  | obj {members : Dictionary Json} (hordered : Dictionary.Ordered members)
      (hmembers : ∀ entry ∈ members, Exact entry.2) : Exact (.obj members)

/-- What stands behind a value is nothing or a mark. -/
def EndsValue (rest : List Char) : Prop :=
  ∀ c ∈ rest.head?, c = ',' ∨ c = ']' ∨ c = '\x7d'

/-! ### Quoted texts -/

theorem readUnits_control {c : Char} (hc : c.toNat < 0x20) (rest : List Char) :
    readUnits ('0' :: '0' :: hexDigit (c.toNat / 16) :: hexDigit c.toNat :: rest) =
      some (c, rest) := by
  have hunit : readUnit ('0' :: '0' :: hexDigit (c.toNat / 16) :: hexDigit c.toNat :: rest) =
      some (c.toNat, rest) := by
    have hzero : Bytes.hexDigitValue '0' = some 0 := by decide
    have hvalue : c.toNat / 16 % 16 * 16 + c.toNat % 16 = c.toNat := by omega
    simp [readUnit, hzero, Yaml.hexDigitValue_hexDigit, hvalue]
  have hchar : charOfCode? c.toNat = some c :=
    dif_pos c.valid
  have hlow : ¬ (0xD800 ≤ c.toNat ∧ c.toNat < 0xDC00) := by omega
  simp [readUnits, hunit, hchar, hlow]

/-- A character is read back from what is printed for it. -/
theorem readQuoted_escapedChar (fuel : Nat) (seen : List Char) (c : Char) (rest : List Char) :
    readQuoted (fuel + 1) seen (escapedChar c ++ rest) = readQuoted fuel (c :: seen) rest := by
  by_cases hbare : Yaml.IsBare c
  · obtain ⟨hlow, hquote, hslash⟩ := id hbare
    rw [hbare.escapedChar, List.singleton_append, readQuoted]
    · rw [if_neg (Nat.not_lt.mpr hlow)]
    · exact fun heq => hquote heq
    · intro more heq
      exact absurd heq hslash
    · intro d more heq
      exact absurd heq hslash
  · rw [escapedChar]
    repeat
      split
      · subst_vars
        rfl
    split
    · rename_i hlow
      simp only [List.cons_append, List.nil_append, readQuoted, readUnits_control hlow]
    · rename_i hquote hslash _ _ _ _ _ hlow
      exact absurd ⟨Nat.le_of_not_lt hlow, hquote, hslash⟩ hbare

theorem readQuoted_escaped (text seen rest : List Char) {fuel : Nat} (hfuel : text.length < fuel) :
    readQuoted fuel seen (text.flatMap escapedChar ++ '"' :: rest) =
      some (String.ofList (seen.reverse ++ text), rest) := by
  induction text generalizing fuel seen with
  | nil =>
      obtain ⟨fuel, rfl⟩ := Nat.exists_eq_add_of_lt hfuel
      simp [readQuoted]
  | cons c text ih =>
      obtain ⟨fuel, rfl⟩ := Nat.exists_eq_add_of_lt hfuel
      rw [List.flatMap_cons, List.append_assoc, readQuoted_escapedChar, ih]
      · simp
      · rw [List.length_cons]
        omega

theorem toList_quotedText_append (text : String) (rest : List Char) :
    (quotedText text).toList ++ rest =
      '"' :: (text.toList.flatMap escapedChar ++ '"' :: rest) := by
  simp [toList_quotedText]

/-- Nothing is printed as less than one character. -/
theorem length_lt_quotedText (text : String) :
    text.toList.length < (quotedText text).toList.length := by
  have hchar (c : Char) : 1 ≤ (escapedChar c).length := by
    rw [escapedChar]
    repeat
      split
      · exact Nat.succ_pos _
    exact Nat.succ_pos _
  have hchars (cs : List Char) : cs.length ≤ (cs.flatMap escapedChar).length := by
    induction cs with
    | nil => exact Nat.le_refl 0
    | cons c cs ih =>
        have hc := hchar c
        rw [List.flatMap_cons, List.length_append, List.length_cons]
        omega
  have htext := hchars text.toList
  simp only [toList_quotedText, List.length_cons, List.length_append, List.cons_append]
  omega

/-- A text is read back from between its quotes. -/
theorem readQuoted_text (text : String) (rest : List Char) (fuel : Nat)
    (hfuel : (quotedText text).toList.length ≤ fuel) :
    readQuoted fuel [] (text.toList.flatMap escapedChar ++ '"' :: rest) = some (text, rest) := by
  have hlength := length_lt_quotedText text
  rw [readQuoted_escaped _ _ _ (Nat.lt_of_lt_of_le hlength hfuel), List.reverse_nil,
    List.nil_append, String.ofList_toList]

/-! ### Integers -/

theorem ofDigits_toDigits (n : Nat) : ofDigits (Nat.toDigits 10 n) = n := by
  have hstep : (fun (m : Nat) (c : Char) => m * 10 + (c.toNat - '0'.toNat)) =
      fun m c => 10 * m + (c.toNat - '0'.toNat) := by
    funext m c
    rw [Nat.mul_comm]
  have hvalue : Nat.ofDigitChars 10 (Nat.toDigits 10 n) 0 = n := Nat.ofDigitChars_ten_toDigits
  rwa [ofDigits, hstep]

/-- No zero stands before other digits, as a number must not begin. -/
theorem toDigits_no_leading_zero (n : Nat) :
    ¬ (Nat.toDigits 10 n = [] ∨
      ((Nat.toDigits 10 n).length > 1 ∧ (Nat.toDigits 10 n).head? = some '0')) := by
  rintro (hempty | ⟨hlong, hzero⟩)
  · exact Nat.toDigits_ne_nil hempty
  by_cases hn : n = 0
  · subst hn
    exact absurd hlong (by decide)
  · obtain ⟨c, more, heq, hc⟩ := Decimal.toDigits_begins hn
    rw [heq] at hzero
    exact hc (Option.some.inj hzero)

/-- Digits that no other character of a number follows are read as an integer. -/
theorem readNumber_digits {n : Nat} (negative : Bool)
    (hfits : if negative then n ≤ UInt64.size / 2 ∧ n ≠ 0 else n < UInt64.size) {rest : List Char}
    (hrest : EndsValue rest) :
    readNumber (Yaml.signed negative (Nat.toDigits 10 n) ++ rest) =
      some (.int (if negative then -(n : Int) else n), rest) := by
  have hdigits : ∀ c ∈ Nat.toDigits 10 n, c.isDigit := fun c hmem => Decimal.isDigit_of_mem hmem
  have hhead : ∀ c ∈ rest.head?, c.isDigit = false := by
    intro c hc
    rcases hrest c hc with rfl | rfl | rfl <;> rfl
  obtain ⟨htake, hdrop⟩ := Yaml.Numeral.takeWhile_append_of_head hdigits hhead
  have hsign : ∀ more, Nat.toDigits 10 n ++ rest ≠ '-' :: more := by
    intro more heq
    have hfirst := congrArg List.head? heq
    rw [List.head?_append_of_ne_nil _ Nat.toDigits_ne_nil] at hfirst
    exact absurd (hdigits '-' (List.mem_of_mem_head? hfirst)) (by decide)
  have hmark : rest = [] ∨ ∃ c more, rest = c :: more ∧ c ≠ '.' ∧ c ≠ 'e' ∧ c ≠ 'E' := by
    cases rest with
    | nil => exact Or.inl rfl
    | cons c more =>
        refine Or.inr ⟨c, more, rfl, ?_⟩
        rcases hrest c rfl with rfl | rfl | rfl <;> decide
  cases negative with
  | true =>
      simp only [readNumber, Yaml.signed, if_true, List.cons_append, htake, hdrop]
      rw [if_neg (toDigits_no_leading_zero n)]
      rcases hmark with rfl | ⟨c, more, rfl, hpoint, hsmall, hlarge⟩
      · simpa [ofDigits_toDigits] using hfits
      · simpa [ofDigits_toDigits, hpoint, hsmall, hlarge] using hfits
  | false =>
      simp only [readNumber, Yaml.signed, Bool.false_eq_true, if_false, htake, hdrop]
      rw [if_neg (toDigits_no_leading_zero n)]
      rcases hmark with rfl | ⟨c, more, rfl, hpoint, hsmall, hlarge⟩
      · simpa [ofDigits_toDigits] using hfits
      · simpa [ofDigits_toDigits, hpoint, hsmall, hlarge] using hfits

theorem readNumber_int {n : Int} (hn : Yaml.fitsWord n) {rest : List Char}
    (hrest : EndsValue rest) :
    readNumber ((toString n).toList ++ rest) = some (.int n, rest) := by
  have hbounds : -(UInt64.size / 2 : Int) ≤ n ∧ n < UInt64.size := decide_eq_true_iff.mp hn
  rw [Yaml.toList_toString, readNumber_digits]
  · by_cases hneg : n < 0
    · rw [if_pos (decide_eq_true hneg)]
      have habs : -(n.natAbs : Int) = n := by omega
      rw [habs]
    · rw [if_neg (by simpa using hneg)]
      have habs : (n.natAbs : Int) = n := by omega
      rw [habs]
  · simp only [UInt64.size] at hbounds ⊢
    split <;> simp_all <;> omega
  · exact hrest

/-! ### Values -/

theorem skipBlanks_cons {c : Char} (hc : c ∉ [' ', '\t', '\n', '\r']) (cs : List Char) :
    skipBlanks (c :: cs) = c :: cs := by
  rw [skipBlanks, List.dropWhile_cons_of_neg]
  simpa using hc

/-- A value is told by its beginning from a mark, and is read back in front of whatever may stand
behind it. -/
structure Rereads (value : Json) : Prop where
  begins : ∃ c more, value.print.toList = c :: more ∧ c ∉ [' ', '\t', '\n', '\r', ']']
  reads : ∀ fuel rest, value.print.toList.length ≤ fuel → EndsValue rest →
    readValue fuel (value.print.toList ++ rest) = some (value, rest)

variable {item member : Json} {fuel : Nat}

/-- The last item is read. -/
theorem readItems_last (hitem : Rereads item) (hfuel : item.print.toList.length ≤ fuel)
    (rest : List Char) :
    readItems (fuel + 1) (item.print.toList ++ ']' :: rest) = some ([item], rest) := by
  rw [readItems, hitem.reads fuel _ hfuel (by simp [EndsValue])]
  rfl

/-- An item is read, and then those behind it. -/
theorem readItems_next (hitem : Rereads item) (hfuel : item.print.toList.length ≤ fuel)
    (rest : List Char) :
    readItems (fuel + 1) (item.print.toList ++ ',' :: rest) =
      (readItems fuel rest).map fun (items, rest) => (item :: items, rest) := by
  rw [readItems, hitem.reads fuel _ hfuel (by simp [EndsValue])]
  cases hitems : readItems fuel rest with
  | none => simp [skipBlanks, hitems]
  | some found => simp [skipBlanks, hitems]

theorem readItems_print {items : List Json} (hitems : ∀ value ∈ item :: items, Rereads value)
    (hfuel : item.print.toList.length + (printItems items).toList.length ≤ fuel)
    (rest : List Char) :
    readItems fuel (item.print.toList ++ ((printItems items).toList ++ rest)) =
      some (item :: items, rest) := by
  induction items generalizing item fuel with
  | nil =>
      have hitem := hitems item List.mem_cons_self
      rw [toList_printItems_nil] at hfuel ⊢
      cases fuel with
      | zero => cases hfuel
      | succ fuel => exact readItems_last hitem (Nat.le_of_succ_le_succ hfuel) rest
  | cons next items ih =>
      obtain ⟨hitem, hothers⟩ := List.forall_mem_cons.mp hitems
      rw [toList_printItems_cons] at hfuel ⊢
      rw [List.length_cons, List.length_append] at hfuel
      cases fuel with
      | zero => cases hfuel
      | succ fuel =>
          have hrest : readItems fuel (next.print.toList ++ ((printItems items).toList ++ rest)) =
              some (next :: items, rest) := ih hothers (by omega)
          rw [List.cons_append, List.append_assoc, readItems_next hitem (by omega), hrest]
          rfl

/-- The last member is read. -/
theorem readMembers_last (hmember : Rereads member) {key : String}
    (hfuel : (quotedText key).toList.length + member.print.toList.length ≤ fuel)
    (rest : List Char) :
    readMembers (fuel + 1)
        ((quotedText key).toList ++ ':' :: (member.print.toList ++ '\x7d' :: rest)) =
      some ([(key, member)], rest) := by
  have hkey := readQuoted_text key (':' :: (member.print.toList ++ '\x7d' :: rest))
    (fuel + 1) (by omega)
  have hread := hmember.reads fuel ('\x7d' :: rest) (by omega) (by simp [EndsValue])
  rw [toList_quotedText_append, readMembers]
  simp [skipBlanks, hkey, hread]

/-- A member is read, and then those behind it. -/
theorem readMembers_next (hmember : Rereads member) {key : String}
    (hfuel : (quotedText key).toList.length + member.print.toList.length ≤ fuel)
    (rest : List Char) :
    readMembers (fuel + 1)
        ((quotedText key).toList ++ ':' :: (member.print.toList ++ ',' :: rest)) =
      (readMembers fuel rest).map fun (members, rest) => ((key, member) :: members, rest) := by
  have hkey := readQuoted_text key (':' :: (member.print.toList ++ ',' :: rest))
    (fuel + 1) (by omega)
  have hread := hmember.reads fuel (',' :: rest) (by omega) (by simp [EndsValue])
  rw [toList_quotedText_append, readMembers]
  cases hmembers : readMembers fuel rest with
  | none => simp [skipBlanks, hkey, hread, hmembers]
  | some found => simp [skipBlanks, hkey, hread, hmembers]

theorem readMembers_print {key : String} {members : List (String × Json)}
    (hmembers : ∀ entry ∈ (key, member) :: members, Rereads entry.2)
    (hfuel : (quotedText key).toList.length + member.print.toList.length +
      (printMembers members).toList.length ≤ fuel)
    (rest : List Char) :
    readMembers fuel ((quotedText key).toList ++
        ':' :: (member.print.toList ++ ((printMembers members).toList ++ rest))) =
      some ((key, member) :: members, rest) := by
  induction members generalizing key member fuel with
  | nil =>
      have hmember := hmembers (key, member) List.mem_cons_self
      rw [toList_printMembers_nil] at hfuel ⊢
      cases fuel with
      | zero => cases hfuel
      | succ fuel => exact readMembers_last hmember (Nat.le_of_succ_le_succ hfuel) rest
  | cons next members ih =>
      obtain ⟨name, following⟩ := next
      obtain ⟨(hmember : Rereads member), hothers⟩ := List.forall_mem_cons.mp hmembers
      rw [toList_printMembers_cons] at hfuel ⊢
      simp only [List.length_cons, List.length_append] at hfuel
      cases fuel with
      | zero => cases hfuel
      | succ fuel =>
          have hrest : readMembers fuel ((quotedText name).toList ++
              ':' :: (following.print.toList ++ ((printMembers members).toList ++ rest))) =
                some ((name, following) :: members, rest) := ih hothers (by omega)
          simp only [List.cons_append, List.append_assoc]
          rw [readMembers_next hmember (by omega), hrest]
          rfl

/-! ### What a value begins with -/

theorem readValue_quote (cs : List Char) :
    readValue (fuel + 1) ('"' :: cs) =
      (readQuoted (fuel + 1) [] cs).map fun (text, rest) => (.str text, rest) := by
  simp [readValue, skipBlanks]

theorem readValue_bracket {cs : List Char} (hcs : ∀ rest, skipBlanks cs ≠ ']' :: rest) :
    readValue (fuel + 1) ('[' :: cs) =
      (readItems fuel cs).map fun (items, rest) => (.arr items, rest) := by
  rw [readValue, skipBlanks_cons (by decide)]
  simp only

theorem readValue_brace {cs : List Char} (hcs : ∀ rest, skipBlanks cs ≠ '\x7d' :: rest) :
    readValue (fuel + 1) ('\x7b' :: cs) =
      (readMembers fuel cs).map fun (members, rest) => (object members, rest) := by
  rw [readValue, skipBlanks_cons (by decide)]
  simp only

theorem readValue_number {c : Char} (hc : c = '-' ∨ c.isDigit) (cs : List Char) :
    readValue (fuel + 1) (c :: cs) = readNumber (c :: cs) := by
  have hne (other : Char) (hother : other ≠ '-' ∧ other.isDigit = false) : c ≠ other := by
    rintro rfl
    rcases hc with rfl | hdigit
    · exact hother.1 rfl
    · rw [hother.2] at hdigit
      cases hdigit
  have hblank : c ∉ [' ', '\t', '\n', '\r'] := by
    simp only [List.mem_cons, List.not_mem_nil, or_false, not_or]
    exact ⟨hne _ (by decide), hne _ (by decide), hne _ (by decide), hne _ (by decide)⟩
  rw [readValue, skipBlanks_cons hblank]
  simp [hne '"' (by decide), hne '[' (by decide),
    hne '\x7b' (by decide), hne 'n' (by decide),
    hne 't' (by decide), hne 'f' (by decide)]

/-! ### Whole values -/

/-- A value is read back if the reader, having the first character of its text, reads the rest. -/
theorem rereads_of_text {value : Json} {c : Char} {more : List Char}
    (htext : value.print.toList = c :: more) (hc : c ∉ [' ', '\t', '\n', '\r', ']'])
    (hreads : ∀ fuel rest, more.length ≤ fuel → EndsValue rest →
      readValue (fuel + 1) (c :: (more ++ rest)) = some (value, rest)) :
    Rereads value := by
  refine ⟨⟨c, more, htext, hc⟩, ?_⟩
  intro fuel rest hfuel hrest
  rw [htext] at hfuel ⊢
  cases fuel with
  | zero => cases hfuel
  | succ fuel => exact hreads fuel rest (Nat.le_of_succ_le_succ hfuel) hrest

theorem rereads_int {value : Int} (hfits : Yaml.fitsWord value) : Rereads (.int value) := by
  obtain ⟨c, more, htext, hc⟩ : ∃ c more, (toString value).toList = c :: more ∧
      (c = '-' ∨ c.isDigit) := by
    obtain ⟨c, more, hdigits⟩ :=
      List.exists_cons_of_ne_nil (Nat.toDigits_ne_nil (b := 10) (n := value.natAbs))
    have hc : c.isDigit := Decimal.isDigit_of_mem (hdigits ▸ List.mem_cons_self)
    rw [Yaml.toList_toString, Yaml.signed, hdigits]
    split
    · exact ⟨'-', c :: more, rfl, Or.inl rfl⟩
    · exact ⟨c, more, rfl, Or.inr hc⟩
  refine rereads_of_text htext ?_ ?_
  · intro hmem
    simp only [List.mem_cons, List.not_mem_nil, or_false] at hmem
    rcases hmem with rfl | rfl | rfl | rfl | rfl <;> exact absurd hc (by decide)
  · intro fuel rest _ hrest
    have hread := readNumber_int hfits hrest
    rwa [readValue_number hc, ← List.cons_append, ← htext]

theorem rereads_str (value : String) : Rereads (.str value) := by
  have htext := toList_quotedText_append value []
  rw [List.append_nil] at htext
  refine rereads_of_text htext (by decide) ?_
  intro fuel rest hfuel _
  have hlength : (quotedText value).toList.length ≤ fuel + 1 := by
    rw [htext]
    exact Nat.succ_le_succ hfuel
  rw [readValue_quote, List.append_assoc, List.singleton_append,
    readQuoted_text value rest _ hlength]
  rfl

theorem rereads_arr {items : List Json} (hitems : ∀ item ∈ items, Rereads item) :
    Rereads (.arr items) := by
  cases items with
  | nil => exact rereads_of_text rfl (by decide) fun fuel rest _ _ => rfl
  | cons item items =>
      refine rereads_of_text (toList_print_arr item items) (by decide) ?_
      intro fuel rest hfuel _
      rw [List.length_append] at hfuel
      rw [List.append_assoc, readValue_bracket]
      · rw [readItems_print hitems hfuel]
        rfl
      · obtain ⟨c, more, hbegins, hc⟩ := (hitems item List.mem_cons_self).begins
        intro after heq
        rw [hbegins, List.cons_append, skipBlanks_cons] at heq
        · obtain ⟨rfl, -⟩ := List.cons.inj heq
          exact hc (by decide)
        · exact fun hmem => hc (List.mem_append_left [']'] hmem)

theorem rereads_obj {members : Dictionary Json} (hordered : Dictionary.Ordered members)
    (hmembers : ∀ entry ∈ members, Rereads entry.2) : Rereads (.obj members) := by
  cases members with
  | nil => exact rereads_of_text rfl (by decide) fun fuel rest _ _ => rfl
  | cons entry members =>
      obtain ⟨key, member⟩ := entry
      refine rereads_of_text (toList_print_obj key member members) (by decide) ?_
      intro fuel rest hfuel _
      simp only [List.cons_append, List.append_assoc, List.length_cons, List.length_append]
        at hfuel ⊢
      rw [readValue_brace]
      · rw [readMembers_print hmembers (by omega)]
        simp only [Option.map_some, object, hordered.ofList_eq]
      · intro after heq
        rw [toList_quotedText_append, skipBlanks_cons (by decide)] at heq
        cases heq

theorem Exact.rereads {value : Json} (hvalue : Exact value) : Rereads value := by
  induction hvalue with
  | null => exact rereads_of_text rfl (by decide) fun fuel rest _ _ => rfl
  | bool value =>
      cases value with
      | true => exact rereads_of_text rfl (by decide) fun fuel rest _ _ => rfl
      | false => exact rereads_of_text rfl (by decide) fun fuel rest _ _ => rfl
  | int hfits => exact rereads_int hfits
  | str value => exact rereads_str value
  | arr _ ih => exact rereads_arr ih
  | obj hordered _ ih => exact rereads_obj hordered ih

/-- A value that its text tells exactly is read back from it. -/
theorem Exact.read?_print {value : Json} (hvalue : Exact value) :
    read? value.print = some value := by
  have hread := hvalue.rereads.reads (2 * value.print.toList.length + 1) [] (by omega)
    (by simp [EndsValue])
  rw [List.append_nil] at hread
  rw [read?, hread]
  rfl

/-! ### Objects and lists that are told by their text -/

namespace Exact

/-- An object is told by its text if its members are. -/
theorem object {pairs : List (String × Json)} (hnodup : (pairs.map (·.1)).Nodup)
    (hpairs : ∀ entry ∈ pairs, Exact entry.2) : Exact (Json.object pairs) := by
  refine .obj (Dictionary.ordered_ofList pairs) ?_
  intro entry hmem
  exact hpairs entry ((Dictionary.mem_ofList hnodup).mp hmem)

theorem ofFields {members : List (String × Option Json)} (hnodup : (members.map (·.1)).Nodup)
    (hmembers : ∀ entry ∈ members, ∀ value ∈ entry.2, Exact value) :
    Exact (Json.ofFields members) := by
  refine object ((Fields.present_sublist members).nodup hnodup) ?_
  rintro ⟨name, value⟩ hmem
  exact hmembers (name, some value) (Fields.mem_present.mp hmem) value rfl

theorem option {α : Type} {toJson : α → Json} (hexact : ∀ value, Exact (toJson value))
    {value : Option α} : ∀ found ∈ value.map toJson, Exact found := by
  intro found hfound
  obtain ⟨content, -, rfl⟩ := Option.map_eq_some_iff.mp hfound
  exact hexact content

theorem list {α : Type} {toJson : α → Json} (hexact : ∀ value, Exact (toJson value))
    (values : List α) : Exact (.arr (values.map toJson)) := by
  refine .arr ?_
  intro item hmem
  obtain ⟨value, -, rfl⟩ := List.mem_map.mp hmem
  exact hexact value

end Exact

end LogForwarding.Json
