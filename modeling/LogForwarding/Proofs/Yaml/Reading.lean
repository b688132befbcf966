import LogForwarding.Proofs.Bytes
import LogForwarding.Proofs.Yaml.Tree

/-!
A printed value as a stream of bytes and as a document: it is read as `reread?` says if all of its
characters may stand in a stream, and refused otherwise.
-/

namespace LogForwarding

open Yaml

namespace Bytes

/-- A stream that begins with a character of ASCII begins with no byte order mark. -/
theorem decodeStream_ofText {text : String} (hplain : BeginsPlain text) :
    decodeStream (ofText text) = some text.toList := by
  obtain ⟨next, rest, heq, hnext⟩ := hplain
  have htext := toText?_ofText text
  rw [heq] at htext ⊢
  rw [decodeStream.eq_4]
  · rw [htext]
    rfl
  all_goals
    rintro rest' ⟨⟩
    exact absurd hnext (by decide)

theorem beginsPlain_of_toList {text : String} {c : Char} {rest : List Char}
    (htext : text.toList = c :: rest) (hc : c.toNat < 0x80) : BeginsPlain text := by
  have hbytes : String.utf8EncodeChar c = [UInt8.ofNat c.val.toNat] := by
    have hlow : c.val.toNat ≤ 127 := Nat.le_of_lt_succ hc
    rw [String.utf8EncodeChar, if_pos hlow]
  refine ⟨UInt8.ofNat c.val.toNat, rest.flatMap String.utf8EncodeChar, ?_, ?_⟩
  · rw [ofText_eq, htext, List.flatMap_cons, hbytes, List.singleton_append]
  · rw [UInt8.lt_iff_toNat_lt, UInt8.toNat_ofNat']
    exact Nat.lt_of_le_of_lt (Nat.mod_le _ _) hc

end Bytes

namespace Yaml

theorem beginsPlain_of_word {text : String} (hword : IsWord text.toList) :
    Bytes.BeginsPlain text := by
  obtain ⟨hall, c, more, -, heq | heq⟩ := hword
  all_goals
    have hfirst := isGraphic_of_word (hall _ (heq ▸ List.mem_cons_self))
    exact Bytes.beginsPlain_of_toList heq (Nat.lt_trans hfirst.2 (by decide))

theorem beginsPlain_print (value : Json) : Bytes.BeginsPlain value.print := by
  have hmark {c : Char} {rest : List Char} (hc : c.toNat < 0x80)
      (htext : value.print.toList = c :: rest) : Bytes.BeginsPlain value.print :=
    Bytes.beginsPlain_of_toList htext hc
  rcases value with
    _ | ⟨_ | _⟩ | n | x | text | ⟨_ | ⟨item, items⟩⟩ | ⟨_ | ⟨⟨key, member⟩, members⟩⟩
  · exact hmark (c := 'n') (by decide) rfl
  · exact hmark (c := 'f') (by decide) rfl
  · exact hmark (c := 't') (by decide) rfl
  · exact beginsPlain_of_word (isWord_int n)
  · exact beginsPlain_of_word (isWord_float x)
  · exact hmark (by decide) (toList_quotedText text)
  · exact hmark (c := '[') (by decide) rfl
  · exact hmark (by decide) (Json.toList_print_arr item items)
  · exact hmark (c := '\x7b') (by decide) rfl
  · exact hmark (by decide) (Json.toList_print_obj key member members)

namespace Composer

theorem get_run (s : Composer) : (get : Compose Composer) s = some (s, s) := rfl

theorem standardHandles_run (s : Composer) : standardHandles s =
    some ((), ⟨s.tokens, s.handles ++ [("!", "!"), ("!!", "tag:yaml.org,2002:")], s.anchors⟩) := rfl

/-- What comes of composing a document. -/
def ComposesDocument (run : Option (Option Measured × Composer)) (read? : Option Json)
    (depth : Nat) : Prop :=
  match read? with
  | none => run = none
  | some value => ∃ found after, run = some (some found, after) ∧ Spells found value depth

/-- What the document of a printed value holds is what its tokens compose to. -/
theorem document_run {value : Json} {tokens : List Token} {read? : Option Json} {depth : Nat}
    (htokens : value.tokens? = some tokens)
    (hroot : Composes (composeNode true false (4 * tokens.length + 4)
        ⟨tokens, [("!", "!"), ("!!", "tag:yaml.org,2002:")], []⟩) read? depth
      ⟨[], [("!", "!"), ("!!", "tag:yaml.org,2002:")], []⟩) :
    ComposesDocument (Composer.document ⟨tokens, [], []⟩) read? depth := by
  obtain ⟨token, more, rfl, hbegins⟩ := begins_of_tokens htokens
  have hdocument : Composer.document ⟨token :: more, [], []⟩ =
      (composeNode true false (4 * (token :: more).length + 4)
        ⟨token :: more, [("!", "!"), ("!!", "tag:yaml.org,2002:")], []⟩).bind fun result =>
          if result.2.tokens.dropWhile (· = .documentEnd) = [] then some (some result.1, result.2)
          else none := by
    have hlast (root : Measured) (s : Composer) :
        ((do let rest := (← get).tokens.dropWhile (· = .documentEnd)
             if rest = [] then return some root else malformed) : Compose (Option Measured)) s =
          if s.tokens.dropWhile (· = .documentEnd) = [] then some (some root, s) else none := by
      rw [bind_run, get_run, Option.bind_some]
      split <;> rfl
    rcases hbegins with ⟨text, style, rfl⟩ | rfl | rfl
    all_goals
      rw [Composer.document, bind_run, get_run, Option.bind_some, bind_run, peek_run,
        Option.bind_some]
      simp only [List.head?_cons, Bool.false_eq_true, if_false]
      rw [bind_run, standardHandles_run, Option.bind_some, bind_run]
      exact congrArg _ (funext fun result => hlast result.1 result.2)
  rw [hdocument]
  cases read? with
  | none =>
      rw [Composes] at hroot
      rw [hroot]
      rfl
  | some read =>
      obtain ⟨found, hrun, hspells⟩ := hroot
      rw [hrun]
      exact ⟨found, _, rfl, hspells⟩

end Composer

theorem joined_eq_none {first next : Option (List Token)} (hjoined : joined first next = none) :
    first = none ∨ next = none := by
  cases first with
  | none => exact Or.inl rfl
  | some tokens => exact Or.inr (Option.map_eq_none_iff.mp hjoined)

theorem rereadMembers?_eq_none {key : String} {member : Json} {members : List (String × Json)}
    (hnone : keyTokens? key = none ∨ member.reread? = none ∨
      Json.rereadMembers? members = none) :
    Json.rereadMembers? ((key, member) :: members) = none := by
  rw [Json.rereadMembers?]
  split
  · rename_i hsimple
    rcases hnone with hkey | hmember | hmembers
    · rw [keyTokens?, folded?_of_simple hsimple] at hkey
      cases hkey
    · rw [hmember]
      rfl
    · simp [hmembers]
  · rfl

mutual

/-- A value is not read if its text has no tokens. -/
theorem reread?_eq_none : ∀ (value : Json), value.tokens? = none → value.reread? = none
  | .null, htokens | .bool _, htokens | .int _, htokens | .float _, htokens => by cases htokens
  | .str text, htokens => by
      rw [Json.reread?, Option.map_eq_none_iff.mp htokens]
      rfl
  | .arr [], htokens | .obj [], htokens => by cases htokens
  | .arr (item :: items), htokens => by
      have hnone := joined_eq_none ((joined_eq_none htokens).resolve_left (by simp))
      rw [Json.reread?, Json.rereadItems?]
      rcases hnone with hitem | hitems
      · simp [reread?_eq_none item hitem]
      · simp [rereadItems?_eq_none items hitems]
  | .obj ((key, member) :: members), htokens => by
      have hnone := joined_eq_none ((joined_eq_none htokens).resolve_left (by simp))
      rw [Json.reread?, rereadMembers?_eq_none]
      · rfl
      · exact hnone.imp_right fun hnext => (joined_eq_none hnext).imp (reread?_eq_none member)
          (rereadMembers?_eq_none_of_tokens members)

theorem rereadItems?_eq_none : ∀ (items : List Json), Json.itemTokens? items = none →
    Json.rereadItems? items = none
  | [], htokens => by cases htokens
  | item :: items, htokens => by
      have hnone := joined_eq_none ((joined_eq_none htokens).resolve_left (by simp))
      rw [Json.rereadItems?]
      rcases hnone with hitem | hitems
      · simp [reread?_eq_none item hitem]
      · simp [rereadItems?_eq_none items hitems]

theorem rereadMembers?_eq_none_of_tokens : ∀ (members : List (String × Json)),
    Json.memberTokens? members = none → Json.rereadMembers? members = none
  | [], htokens => by cases htokens
  | (key, member) :: members, htokens => by
      have hnone := joined_eq_none ((joined_eq_none htokens).resolve_left (by simp))
      exact rereadMembers?_eq_none (hnone.imp_right fun hnext => (joined_eq_none hnext).imp
        (reread?_eq_none member) (rereadMembers?_eq_none_of_tokens members))

end

/-- The value that a printed value is read as, if it is read at all. -/
def readBack? (value : Json) : Option Json :=
  if value.print.toList.all isAllowed then value.reread? else none

/-- A printed value is read as what its tokens compose to, if its characters may stand in a stream. -/
theorem read?_print_of_composes {value : Json} {read? : Option Json}
    (hdepth : value.nesting ≤ maxDepth) (hnone : value.tokens? = none → read? = none)
    (hroot : ∀ tokens, value.tokens? = some tokens →
      Composer.Composes (Composer.composeNode true false (4 * tokens.length + 4)
          ⟨tokens ++ [], [("!", "!"), ("!!", "tag:yaml.org,2002:")], []⟩) read? value.nesting
        ⟨[], [("!", "!"), ("!!", "tag:yaml.org,2002:")], []⟩) :
    Yaml.read? (Bytes.ofText value.print) =
      if value.print.toList.all isAllowed then read? else none := by
  have hsource : Source.ofBytes? (Bytes.ofText value.print) =
      if value.print.toList.all isAllowed then
        some (Place.located ⟨0, 0, 0⟩ value.print.toList) else none := by
    rw [Source.ofBytes?, Bytes.decodeStream_ofText (beginsPlain_print value)]
    rfl
  rw [Yaml.read?, Node.ofBytes?, hsource]
  by_cases hallowed : value.print.toList.all isAllowed
  · rw [if_pos hallowed, if_pos hallowed]
    simp only [Option.bind_eq_bind, Option.bind_some, tokens_located]
    cases htokens : value.tokens? with
    | none => exact (hnone htokens).symm
    | some tokens =>
        have hcomposed := hroot tokens htokens
        rw [List.append_nil] at hcomposed
        have hdocument := Composer.document_run htokens hcomposed
        simp only [Option.bind_some, StateT.run]
        cases read? with
        | none =>
            rw [Composer.ComposesDocument] at hdocument
            rw [hdocument]
            rfl
        | some read =>
            obtain ⟨found, after, hrun, hspells⟩ := hdocument
            rw [hrun]
            simp [hspells.depth, hspells.follows, hdepth, hspells.value]
  · rw [if_neg hallowed, if_neg hallowed]
    rfl

theorem read?_print {value : Json} (hproper : value.IsProper) (hdepth : value.nesting ≤ maxDepth) :
    read? (Bytes.ofText value.print) = readBack? value :=
  read?_print_of_composes hdepth (reread?_eq_none value) fun _ htokens =>
    Composer.compose_value value true false [] hproper htokens (by omega)

/-! ### What is read back unaltered -/

theorem isAllowed_of_graphic {c : Char} (hc : IsGraphic c) : isAllowed c := by
  rw [isAllowed, decide_eq_true_iff]
  exact Or.inr (Or.inr (Or.inr (Or.inl ⟨Nat.le_of_lt hc.1, Nat.le_of_lt_succ hc.2⟩)))

theorem all_isAllowed_of_word {word : List Char} (hword : IsWord word) : word.all isAllowed :=
  List.all_eq_true.mpr fun c hmem => isAllowed_of_graphic (isGraphic_of_word (hword.1 c hmem))

theorem all_isAllowed_escapedChar (c : Char) :
    (Json.escapedChar c).all isAllowed = decide (c.toNat < 0x20 ∨ isAllowed c) := by
  by_cases hbare : IsBare c
  · have hhigh : ¬ c.toNat < 0x20 := Nat.not_lt.mpr hbare.1
    rw [IsBare.escapedChar hbare]
    simp [hhigh]
  · have hright : c.toNat < 0x20 ∨ isAllowed c := by
      by_cases hlow : c.toNat < 0x20
      · exact Or.inl hlow
      · refine Or.inr ?_
        obtain rfl | rfl : c = '"' ∨ c = '\\' := by
          by_contra hne
          exact hbare ⟨Nat.le_of_not_lt hlow, not_or.mp hne⟩
        all_goals decide
    rw [decide_eq_true hright]
    have hslash : isAllowed '\\' := by decide
    rcases escapedChar_cases c with habsurd | ⟨letter, heq, hgraphic, -⟩ | ⟨-, heq⟩
    · exact absurd habsurd hbare
    · rw [heq]
      simp [isAllowed_of_graphic hgraphic, hslash]
    · have hmark : isAllowed 'u' ∧ isAllowed '0' := by decide
      rw [heq]
      simp [isAllowed_of_graphic (isGraphic_hexDigit _), hslash, hmark]

theorem all_isAllowed_quoted (text : String) :
    (quoted text).all isAllowed = Json.hasAllowed text := by
  have hquote : isAllowed '"' := by decide
  rw [quoted, escaped, Json.hasAllowed]
  simp only [List.cons_append, List.all_cons, List.all_append, List.all_nil, hquote,
    Bool.true_and, Bool.and_true, List.all_flatMap, all_isAllowed_escapedChar]

theorem rereadItems?_cons_eq_iff (item : Json) (items : List Json) :
    Json.rereadItems? (item :: items) = some (item :: items) ↔
      item.reread? = some item ∧ Json.rereadItems? items = some items := by
  rw [Json.rereadItems?]
  simp [Option.bind_eq_some_iff]

theorem rereadMembers?_cons_eq_iff (key : String) (member : Json)
    (members : List (String × Json)) :
    Json.rereadMembers? ((key, member) :: members) = some ((key, member) :: members) ↔
      isSimpleKey key ∧ member.reread? = some member ∧
        Json.rereadMembers? members = some members := by
  rw [Json.rereadMembers?]
  split
  · simp [Option.bind_eq_some_iff, *]
  · simp [*]

mutual

/-- Exactly the legible values are read back as they are. -/
theorem isLegible_iff : ∀ value : Json,
    value.IsLegible ↔ value.print.toList.all isAllowed ∧ value.reread? = some value
  | .null | .bool true | .bool false | .arr [] | .obj [] => by
      simp [Json.IsLegible, Json.AreLegible, Json.AreLegibleMembers, Json.reread?,
        Json.rereadItems?, Json.rereadMembers?, Json.print]
      decide
  | .int n => by
      simpa [Json.IsLegible, Json.reread?] using
        List.all_eq_true.mp (all_isAllowed_of_word (isWord_int n))
  | .float x => by
      simpa [Json.IsLegible, Json.reread?] using
        List.all_eq_true.mp (all_isAllowed_of_word (isWord_float x))
  | .str text => by
      rw [Json.IsLegible, Json.reread?, Json.print, toList_quotedText, all_isAllowed_quoted,
        ← folded?_eq_iff]
      simp
  | .arr (item :: items) => by
      have hmark : isAllowed '[' := by decide
      rw [Json.IsLegible, Json.AreLegible, isLegible_iff item, areLegible_iff items, Json.reread?,
        Json.toList_print_arr]
      simp [rereadItems?_cons_eq_iff, hmark]
      tauto
  | .obj ((key, member) :: members) => by
      have hmark : isAllowed '\x7b' ∧ isAllowed ':' := by decide
      rw [Json.IsLegible, Json.AreLegibleMembers, isLegible_iff member,
        areLegibleMembers_iff members, Json.reread?, Json.toList_print_obj, toList_quotedText,
        ← all_isAllowed_quoted]
      simp [rereadMembers?_cons_eq_iff, hmark]
      tauto

theorem areLegible_iff : ∀ items : List Json,
    Json.AreLegible items ↔
      (Json.printItems items).toList.all isAllowed ∧ Json.rereadItems? items = some items
  | [] => by
      simp [Json.AreLegible, Json.rereadItems?, Json.printItems]
      decide
  | item :: items => by
      have hmark : isAllowed ',' := by decide
      rw [Json.AreLegible, isLegible_iff item, areLegible_iff items, Json.toList_printItems_cons,
        rereadItems?_cons_eq_iff]
      simp [hmark]
      tauto

theorem areLegibleMembers_iff : ∀ members : List (String × Json),
    Json.AreLegibleMembers members ↔
      (Json.printMembers members).toList.all isAllowed ∧
        Json.rereadMembers? members = some members
  | [] => by
      simp [Json.AreLegibleMembers, Json.rereadMembers?, Json.printMembers]
      decide
  | (key, member) :: members => by
      have hmark : isAllowed ',' ∧ isAllowed ':' := by decide
      rw [Json.AreLegibleMembers, isLegible_iff member, areLegibleMembers_iff members,
        Json.toList_printMembers_cons, toList_quotedText, rereadMembers?_cons_eq_iff, ← all_isAllowed_quoted]
      simp [hmark]
      tauto

end

end Yaml

end LogForwarding
