import LogForwarding.Proofs.Dictionary
import LogForwarding.Proofs.Yaml.Reread
import LogForwarding.Proofs.Yaml.Tokens
import LogForwarding.Yaml.Value

/-!
The tree of a printed value.
-/

namespace LogForwarding.Yaml

namespace Composer

section Run

variable {α β : Type} (s : Composer)

theorem bind_run (first : Compose α) (next : α → Compose β) :
    (first >>= next) s = (first s).bind fun result => next result.1 result.2 := rfl

theorem map_run (f : α → β) (first : Compose α) :
    (f <$> first) s = (first s).map fun result => (f result.1, result.2) := by
  cases hfirst : first s with
  | none => simp [Functor.map, StateT.map, hfirst]
  | some result => simp [Functor.map, StateT.map, hfirst]

theorem pure_run (value : α) : (pure value : Compose α) s = some (value, s) := rfl

theorem malformed_run : (malformed : Compose α) s = none := rfl

theorem peek_run : peek s = some (s.tokens.head?, s) := rfl

theorem pass_run : pass s = some ((), ⟨s.tokens.drop 1, s.handles, s.anchors⟩) := rfl

theorem accept_run (token : Token) :
    accept token s =
      if s.tokens.head? = some token then
        some (true, ⟨s.tokens.drop 1, s.handles, s.anchors⟩)
      else some (false, s) := by
  rw [accept, bind_run, peek_run, Option.bind_some]
  split <;> rfl

end Run

variable {handles : List (String × String)} {anchors : List (String × Option Measured)}
  {token : Token} {rest : List Token} {fuel : Nat} (block indentless : Bool)

theorem composeNode_scalar (text : String) (style : ScalarStyle) :
    composeNode block indentless (fuel + 2) ⟨.scalar text style :: rest, handles, anchors⟩ =
      some (⟨.scalar text style none, 0, 0, 1⟩, ⟨rest, handles, anchors⟩) := rfl

theorem composeNode_sequence :
    composeNode block indentless (fuel + 2) ⟨.flowSequenceStart :: rest, handles, anchors⟩ =
      (flowItems true fuel ⟨rest, handles, anchors⟩).map fun result =>
        (sequenceOf result.1 none, result.2) := by
  simp [composeNode, composeContent, properties, define, bind_run, map_run, pure_run, peek_run,
    pass_run]

theorem composeNode_mapping :
    composeNode block indentless (fuel + 2) ⟨.flowMappingStart :: rest, handles, anchors⟩ =
      (flowEntries true fuel ⟨rest, handles, anchors⟩).map fun result =>
        (mappingOf result.1 none, result.2) := by
  simp [composeNode, composeContent, properties, define, bind_run, map_run, pure_run, peek_run,
    pass_run]

/-- A token that begins a node of a printed value. -/
def BeginsNode (token : Token) : Prop :=
  (∃ text style, token = .scalar text style) ∨ token = .flowSequenceStart ∨
    token = .flowMappingStart

/-- What stands in front of an item that may be the first one. -/
def separator (first : Bool) : List Token :=
  if first then [] else [.flowEntry]

theorem flowItems_end (first : Bool) :
    flowItems first (fuel + 1) ⟨.flowSequenceEnd :: rest, handles, anchors⟩ =
      some ([], ⟨rest, handles, anchors⟩) := by
  simp [flowItems, bind_run, pure_run, accept_run]

theorem flowItems_item (first : Bool) (hbegins : BeginsNode token) :
    flowItems first (fuel + 1) ⟨separator first ++ token :: rest, handles, anchors⟩ =
      (composeNode false false fuel ⟨token :: rest, handles, anchors⟩).bind fun item =>
        (flowItems false fuel item.2).map fun others => (item.1 :: others.1, others.2) := by
  have hend : token ≠ .flowSequenceEnd := by
    rcases hbegins with ⟨text, style, rfl⟩ | rfl | rfl <;> nofun
  have hkey : token ≠ .key := by
    rcases hbegins with ⟨text, style, rfl⟩ | rfl | rfl <;> nofun
  cases first <;>
    simp [flowItems, separator, bind_run, map_run, accept_run, hend, hkey]

theorem flowEntries_end (first : Bool) :
    flowEntries first (fuel + 1) ⟨.flowMappingEnd :: rest, handles, anchors⟩ =
      some ([], ⟨rest, handles, anchors⟩) := by
  simp [flowEntries, bind_run, pure_run, accept_run]

/-- An entry whose key was seen to be one. -/
theorem flowEntries_key (first : Bool) (text : String) (style : ScalarStyle)
    (hbegins : BeginsNode token) :
    flowEntries first (fuel + 3)
        ⟨separator first ++ .key :: .scalar text style :: .value :: token :: rest, handles,
          anchors⟩ =
      (composeNode false false (fuel + 2) ⟨token :: rest, handles, anchors⟩).bind fun member =>
        (flowEntries false (fuel + 2) member.2).map fun others =>
          ((⟨.scalar text style none, 0, 0, 1⟩, member.1) :: others.1, others.2) := by
  rw [flowEntries]
  rcases hbegins with ⟨text, style, rfl⟩ | rfl | rfl
  all_goals
    cases first <;>
      simp [separator, bind_run, map_run, accept_run, peek_run, composeNode_scalar]

/-- An entry whose key was not seen to be one: the colon stands where a comma should. -/
theorem flowEntries_bare (first : Bool) (text : String) (style : ScalarStyle) :
    flowEntries first (fuel + 3)
      ⟨separator first ++ .scalar text style :: .value :: rest, handles, anchors⟩ = none := by
  have hrest : flowEntries false (fuel + 2) ⟨.value :: rest, handles, anchors⟩ = none := by
    rw [flowEntries]
    simp [bind_run, accept_run, malformed_run]
  rw [flowEntries]
  cases first <;>
    simp [separator, bind_run, map_run, accept_run, composeNode_scalar, hrest]

/-! ### From tokens to values -/

/-- A node that stands for a value, in which so many collections are nested and no alias is
followed. -/
structure Spells (found : Measured) (value : Json) (depth : Nat) : Prop where
  value : found.node.toJson? = some value
  depth : found.depth = depth
  follows : found.follows = 0

/-- What comes of composing a node. -/
def Composes (run : Option (Measured × Composer)) (read? : Option Json) (depth : Nat)
    (after : Composer) : Prop :=
  match read? with
  | none => run = none
  | some value => ∃ found, run = some (found, after) ∧ Spells found value depth

/-- What comes of composing the items of a sequence. -/
def ComposesItems (run : Option (List Measured × Composer)) (read? : Option (List Json))
    (depth : Nat) (after : Composer) : Prop :=
  match read? with
  | none => run = none
  | some values =>
      ∃ found, run = some (found, after) ∧ itemsToJson? (found.map Measured.node) = some values ∧
        (∀ d, found.foldl (fun d m => max d m.depth) d = max d depth) ∧
        ∀ n, found.foldl (fun n m => n + m.follows) n = n

/-- What comes of composing the entries of a mapping. -/
def ComposesEntries (run : Option (List (Measured × Measured) × Composer))
    (read? : Option (List (String × Json))) (depth : Nat) (after : Composer) : Prop :=
  match read? with
  | none => run = none
  | some members =>
      ∃ found, run = some (found, after) ∧
        entriesToJson? (found.map fun e => (e.1.node, e.2.node)) = some members ∧
        (∀ d, found.foldl (fun d e => max d (max e.1.depth e.2.depth)) d = max d depth) ∧
        ∀ n, found.foldl (fun n e => n + e.1.follows + e.2.follows) n = n

variable {others : List Token} {after : Composer} {depth depths : Nat}

theorem ComposesItems.cons (first : Bool) {read? : Option Json} {reads? : Option (List Json)}
    (hbegins : BeginsNode token)
    (hitem : Composes (composeNode false false fuel ⟨token :: rest, handles, anchors⟩) read? depth
      ⟨others, handles, anchors⟩)
    (hothers : ComposesItems (flowItems false fuel ⟨others, handles, anchors⟩) reads? depths
      after) :
    ComposesItems
      (flowItems first (fuel + 1) ⟨separator first ++ token :: rest, handles, anchors⟩)
      (read?.bind fun value => reads?.map (value :: ·)) (max depth depths) after := by
  rw [flowItems_item first hbegins]
  cases read? with
  | none =>
      rw [Composes] at hitem
      rw [hitem]
      rfl
  | some value =>
      obtain ⟨found, hrun, hspells⟩ := hitem
      rw [hrun, Option.bind_some]
      cases reads? with
      | none =>
          rw [ComposesItems] at hothers
          rw [hothers]
          rfl
      | some values =>
          obtain ⟨founds, hruns, hvalues, hdepths, hfollows⟩ := hothers
          rw [hruns]
          refine ⟨found :: founds, rfl, ?_, ?_, ?_⟩
          · rw [List.map_cons, itemsToJson?, hspells.value, hvalues]
            rfl
          · intro d
            rw [List.foldl_cons, hdepths, hspells.depth, Nat.max_assoc]
          · intro n
            rw [List.foldl_cons, hfollows, hspells.follows, Nat.add_zero]

theorem ComposesEntries.cons (first : Bool) (key : String) {read? : Option Json}
    {reads? : Option (List (String × Json))} (hbegins : BeginsNode token)
    (hmember : Composes (composeNode false false (fuel + 2) ⟨token :: rest, handles, anchors⟩)
      read? depth ⟨others, handles, anchors⟩)
    (hothers : ComposesEntries (flowEntries false (fuel + 2) ⟨others, handles, anchors⟩) reads?
      depths after) :
    ComposesEntries
      (flowEntries first (fuel + 3)
        ⟨separator first ++ .key :: .scalar key .quoted :: .value :: token :: rest, handles,
          anchors⟩)
      (read?.bind fun value => reads?.map ((key, value) :: ·)) (max depth depths) after := by
  rw [flowEntries_key first key .quoted hbegins]
  cases read? with
  | none =>
      rw [Composes] at hmember
      rw [hmember]
      rfl
  | some value =>
      obtain ⟨found, hrun, hspells⟩ := hmember
      rw [hrun, Option.bind_some]
      cases reads? with
      | none =>
          rw [ComposesEntries] at hothers
          rw [hothers]
          rfl
      | some values =>
          obtain ⟨founds, hruns, hvalues, hdepths, hfollows⟩ := hothers
          rw [hruns]
          refine ⟨(_, found) :: founds, rfl, ?_, ?_, ?_⟩
          · rw [List.map_cons, entriesToJson?, hspells.value, hvalues]
            rfl
          · intro d
            rw [List.foldl_cons, hdepths, hspells.depth, Nat.zero_max, Nat.max_assoc]
          · intro n
            rw [List.foldl_cons, hfollows, hspells.follows]
            rfl

theorem joined_eq_some {first next : Option (List Token)} {tokens : List Token}
    (hjoined : joined first next = some tokens) :
    ∃ tokens₁ tokens₂,
      first = some tokens₁ ∧ next = some tokens₂ ∧ tokens = tokens₁ ++ tokens₂ := by
  obtain ⟨tokens₁, hfirst, hrest⟩ := Option.bind_eq_some_iff.mp hjoined
  obtain ⟨tokens₂, hnext, heq⟩ := Option.map_eq_some_iff.mp hrest
  exact ⟨tokens₁, tokens₂, hfirst, hnext, heq.symm⟩

/-- The tokens of a value begin a node. -/
theorem begins_of_tokens {value : Json} {tokens : List Token}
    (htokens : value.tokens? = some tokens) :
    ∃ token more, tokens = token :: more ∧ BeginsNode token := by
  have hmark {mark : Token} {next : Option (List Token)} (hbegins : BeginsNode mark)
      (hjoined : joined (some [mark]) next = some tokens) :
      ∃ token more, tokens = token :: more ∧ BeginsNode token := by
    obtain ⟨tokens₁, tokens₂, hfirst, -, rfl⟩ := joined_eq_some hjoined
    obtain rfl := Option.some.inj hfirst
    exact ⟨mark, tokens₂, rfl, hbegins⟩
  have hscalar {text : String} {style : ScalarStyle} :
      BeginsNode (.scalar text style) := Or.inl ⟨text, style, rfl⟩
  rcases value with _ | _ | _ | _ | text | ⟨_ | ⟨item, items⟩⟩ | ⟨_ | ⟨⟨key, member⟩, members⟩⟩
  · exact ⟨_, _, (Option.some.inj htokens).symm, hscalar⟩
  · exact ⟨_, _, (Option.some.inj htokens).symm, hscalar⟩
  · exact ⟨_, _, (Option.some.inj htokens).symm, hscalar⟩
  · exact ⟨_, _, (Option.some.inj htokens).symm, hscalar⟩
  · obtain ⟨read, -, rfl⟩ := Option.map_eq_some_iff.mp htokens
    exact ⟨_, _, rfl, hscalar⟩
  · exact hmark (Or.inr (Or.inl rfl)) htokens
  · exact hmark (Or.inr (Or.inl rfl)) htokens
  · exact hmark (Or.inr (Or.inr rfl)) htokens
  · exact hmark (Or.inr (Or.inr rfl)) htokens

theorem composes_scalar (block indentless : Bool) {text : String} {style : ScalarStyle}
    {value : Json} (hvalue : scalarValue text style none = some value) (hfuel : 2 ≤ fuel) :
    Composes (composeNode block indentless fuel ⟨.scalar text style :: rest, handles, anchors⟩)
      (some value) 0 ⟨rest, handles, anchors⟩ := by
  obtain ⟨fuel, rfl⟩ := Nat.exists_eq_add_of_le' hfuel
  exact ⟨_, composeNode_scalar block indentless text style, hvalue, rfl, rfl⟩

/-- Composing the tokens of a sequence from those of its items. -/
theorem composes_sequence (block indentless : Bool) {reads? : Option (List Json)}
    (hitems : ComposesItems (flowItems true fuel ⟨rest, handles, anchors⟩) reads? depth after) :
    Composes
      (composeNode block indentless (fuel + 2) ⟨.flowSequenceStart :: rest, handles, anchors⟩)
      (reads?.map .arr) (1 + depth) after := by
  rw [composeNode_sequence]
  cases reads? with
  | none =>
      rw [ComposesItems] at hitems
      rw [hitems]
      rfl
  | some values =>
      obtain ⟨found, hrun, hvalues, hdepth, hfollows⟩ := hitems
      rw [hrun]
      refine ⟨sequenceOf found none, rfl, ?_, ?_, hfollows 0⟩
      · simp [sequenceOf, Node.toJson?, hvalues]
      · rw [sequenceOf, hdepth, Nat.zero_max]

/-- Composing the tokens of a mapping from those of its entries. -/
theorem composes_mapping (block indentless : Bool) {reads? : Option (List (String × Json))}
    (hentries : ComposesEntries (flowEntries true fuel ⟨rest, handles, anchors⟩) reads? depth
      after) :
    Composes
      (composeNode block indentless (fuel + 2) ⟨.flowMappingStart :: rest, handles, anchors⟩)
      (reads?.map Json.object) (1 + depth) after := by
  rw [composeNode_mapping]
  cases reads? with
  | none =>
      rw [ComposesEntries] at hentries
      rw [hentries]
      rfl
  | some members =>
      obtain ⟨found, hrun, hvalues, hdepth, hfollows⟩ := hentries
      rw [hrun]
      refine ⟨mappingOf found none, rfl, ?_, ?_, hfollows 0⟩
      · simp [mappingOf, Node.toJson?, hvalues]
      · rw [mappingOf, hdepth, Nat.zero_max]

/-- An object is the one that its members make, if they are in order. -/
theorem object_of_ordered {members : List (String × Json)} (hordered : Dictionary.Ordered members) :
    Json.object members = .obj members := by
  rw [Json.object, hordered.ofList_eq]

/-- The keys of the members are read as they are. -/
theorem keys_of_reread {members read : List (String × Json)}
    (hread : Json.rereadMembers? members = some read) :
    read.map Prod.fst = members.map Prod.fst := by
  induction members generalizing read with
  | nil =>
      cases hread
      rfl
  | cons entry members ih =>
      obtain ⟨key, member⟩ := entry
      rw [Json.rereadMembers?] at hread
      split at hread
      · obtain ⟨value, -, hrest⟩ := Option.bind_eq_some_iff.mp hread
        obtain ⟨others, hothers, rfl⟩ := Option.map_eq_some_iff.mp hrest
        rw [List.map_cons, List.map_cons, ih hothers]
      · cases hread

theorem ordered_of_keys {members others : List (String × Json)}
    (hkeys : others.map Prod.fst = members.map Prod.fst) (hordered : Dictionary.Ordered members) :
    Dictionary.Ordered others := by
  have hmembers := (List.pairwise_map (f := Prod.fst)).mpr hordered
  rw [← hkeys] at hmembers
  exact List.pairwise_map.mp hmembers

/-- Members in order are read as they stand. -/
theorem map_object_reread {members : List (String × Json)} (hordered : Dictionary.Ordered members) :
    (Json.rereadMembers? members).map Json.object = (Json.obj members).reread? := by
  rw [Json.reread?]
  cases hread : Json.rereadMembers? members with
  | none => rfl
  | some read =>
      have hobject := object_of_ordered (ordered_of_keys (keys_of_reread hread) hordered)
      exact congrArg some hobject

/-- An entry whose key is no simple one spoils the mapping. -/
theorem ComposesEntries.member (first : Bool) {key : String} {member : Json}
    {members : List (String × Json)} {keys tokens : List Token}
    (hkeys : keyTokens? key = some keys) (htokens : member.tokens? = some tokens)
    (hmember : Composes (composeNode false false (fuel + 2) ⟨tokens ++ rest, handles, anchors⟩)
      member.reread? depth ⟨others, handles, anchors⟩)
    (hothers : ComposesEntries (flowEntries false (fuel + 2) ⟨others, handles, anchors⟩)
      (Json.rereadMembers? members) depths after) :
    ComposesEntries
      (flowEntries first (fuel + 3)
        ⟨separator first ++ (keys ++ (tokens ++ rest)), handles, anchors⟩)
      (Json.rereadMembers? ((key, member) :: members)) (max depth depths) after := by
  obtain ⟨read, hread, rfl⟩ := Option.map_eq_some_iff.mp hkeys
  rw [Json.rereadMembers?, keyTokens]
  by_cases hsimple : isSimpleKey key
  · obtain rfl : key = read := Option.some.inj ((folded?_of_simple hsimple).symm.trans hread)
    obtain ⟨token, more, rfl, hbegins⟩ := begins_of_tokens htokens
    rw [if_pos hsimple, if_pos hsimple]
    exact ComposesEntries.cons first key hbegins hmember hothers
  · rw [if_neg hsimple, if_neg hsimple]
    exact flowEntries_bare first read .quoted

theorem length_pos_of_itemTokens {items : List Json} {tokens : List Token}
    (htokens : Json.itemTokens? items = some tokens) : 0 < tokens.length := by
  cases items with
  | nil =>
      obtain rfl := Option.some.inj htokens
      exact Nat.one_pos
  | cons item items =>
      obtain ⟨mark, tokens, hmark, -, rfl⟩ := joined_eq_some htokens
      obtain rfl := Option.some.inj hmark
      exact Nat.succ_pos _

theorem length_keyTokens {key : String} {tokens : List Token}
    (htokens : keyTokens? key = some tokens) : 2 ≤ tokens.length := by
  obtain ⟨read, -, rfl⟩ := Option.map_eq_some_iff.mp htokens
  rw [keyTokens, List.length_append]
  exact Nat.le_add_left _ _

mutual

theorem compose_value : ∀ (value : Json) {tokens : List Token} {fuel : Nat}
    (block indentless : Bool) (rest : List Token), value.IsProper →
    value.tokens? = some tokens → 2 * tokens.length ≤ fuel →
    Composes (composeNode block indentless fuel ⟨tokens ++ rest, handles, anchors⟩) value.reread?
      value.nesting ⟨rest, handles, anchors⟩
  | .null, tokens, fuel, block, indentless, rest, hproper, htokens, hfuel => by
      obtain rfl := Option.some.inj htokens
      exact composes_scalar block indentless rfl hfuel
  | .bool true, tokens, fuel, block, indentless, rest, hproper, htokens, hfuel => by
      obtain rfl := Option.some.inj htokens
      exact composes_scalar block indentless rfl hfuel
  | .bool false, tokens, fuel, block, indentless, rest, hproper, htokens, hfuel => by
      obtain rfl := Option.some.inj htokens
      exact composes_scalar block indentless rfl hfuel
  | .int n, tokens, fuel, block, indentless, rest, hproper, htokens, hfuel => by
      obtain rfl := Option.some.inj htokens
      exact composes_scalar block indentless (plainValue_int hproper) hfuel
  | .float x, tokens, fuel, block, indentless, rest, hproper, htokens, hfuel => by
      obtain rfl := Option.some.inj htokens
      exact composes_scalar block indentless (plainValue_float hproper) hfuel
  | .str text, tokens, fuel, block, indentless, rest, hproper, htokens, hfuel => by
      obtain ⟨read, hread, rfl⟩ := Option.map_eq_some_iff.mp htokens
      rw [Json.reread?, hread]
      exact composes_scalar block indentless rfl hfuel
  | .arr [], tokens, fuel, block, indentless, rest, hproper, htokens, hfuel => by
      obtain rfl := Option.some.inj htokens
      obtain ⟨fuel, rfl⟩ := Nat.exists_eq_add_of_le' (show 3 ≤ fuel from by simp at hfuel; omega)
      refine composes_sequence block indentless (?_ : ComposesItems _ (some []) _ _)
      exact ⟨[], flowItems_end true, rfl, fun d => (Nat.max_zero d).symm, fun n => rfl⟩
  | .arr (item :: items), tokens, fuel, block, indentless, rest, hproper, htokens, hfuel => by
      obtain ⟨mark, tokens, hmark, hrest, rfl⟩ := joined_eq_some htokens
      obtain rfl := Option.some.inj hmark
      obtain ⟨tokens₁, tokens₂, htokens₁, htokens₂, rfl⟩ := joined_eq_some hrest
      have hpos := length_pos_of_itemTokens htokens₂
      simp only [List.length_append, List.length_singleton] at hfuel
      obtain ⟨fuel, rfl⟩ := Nat.exists_eq_add_of_le' (show 3 ≤ fuel by omega)
      have hitem := compose_value item false false (tokens₂ ++ rest) hproper.1 htokens₁
        (show 2 * tokens₁.length ≤ fuel by omega)
      obtain ⟨token, more, rfl, hbegins⟩ := begins_of_tokens htokens₁
      have hitems := compose_items items rest hproper.2 htokens₂
        (show 2 * tokens₂.length ≤ fuel by simp at hfuel; omega)
      have hall := composes_sequence block indentless (ComposesItems.cons true hbegins hitem hitems)
      simpa [Json.reread?, Json.rereadItems?, Json.nesting, Json.nestingItems, separator] using hall
  | .obj members, tokens, fuel, block, indentless, rest, hproper, htokens, hfuel => by
      rw [← map_object_reread hproper.1]
      exact compose_object members block indentless rest hproper.2 htokens hfuel

/-- An object whose members stand in any order. -/
theorem compose_object : ∀ (members : List (String × Json)) {tokens : List Token} {fuel : Nat}
    (block indentless : Bool) (rest : List Token), Json.AreProperMembers members →
    (Json.obj members).tokens? = some tokens → 2 * tokens.length ≤ fuel →
    Composes (composeNode block indentless fuel ⟨tokens ++ rest, handles, anchors⟩)
      ((Json.rereadMembers? members).map Json.object) (Json.obj members).nesting
      ⟨rest, handles, anchors⟩
  | [], tokens, fuel, block, indentless, rest, hproper, htokens, hfuel => by
      obtain rfl := Option.some.inj htokens
      obtain ⟨fuel, rfl⟩ := Nat.exists_eq_add_of_le' (show 3 ≤ fuel from by simp at hfuel; omega)
      refine composes_mapping block indentless (?_ : ComposesEntries _ (some []) _ _)
      exact ⟨[], flowEntries_end true, rfl, fun d => (Nat.max_zero d).symm, fun n => rfl⟩
  | (key, member) :: members, tokens, fuel, block, indentless, rest, hproper, htokens, hfuel => by
      obtain ⟨mark, tokens, hmark, hrest, rfl⟩ := joined_eq_some htokens
      obtain rfl := Option.some.inj hmark
      obtain ⟨keys, tokens, hkeys, hmore, rfl⟩ := joined_eq_some hrest
      obtain ⟨tokens₁, tokens₂, htokens₁, htokens₂, rfl⟩ := joined_eq_some hmore
      have hlength := length_keyTokens hkeys
      simp only [List.length_append, List.length_singleton] at hfuel
      obtain ⟨fuel, rfl⟩ := Nat.exists_eq_add_of_le' (show 5 ≤ fuel by omega)
      have hmember := compose_value member false false (tokens₂ ++ rest) hproper.1 htokens₁
        (show 2 * tokens₁.length ≤ fuel + 2 by omega)
      have hmembers := compose_members members rest hproper.2 htokens₂
        (show 2 * tokens₂.length ≤ fuel + 2 by omega)
      have hentries := ComposesEntries.member true hkeys htokens₁ hmember hmembers
      simpa [Json.nesting, Json.nestingMembers, separator] using
        composes_mapping block indentless hentries

theorem compose_items : ∀ (items : List Json) {tokens : List Token} {fuel : Nat}
    (rest : List Token), Json.AreProper items → Json.itemTokens? items = some tokens →
    2 * tokens.length ≤ fuel →
    ComposesItems (flowItems false fuel ⟨tokens ++ rest, handles, anchors⟩)
      (Json.rereadItems? items) (Json.nestingItems items) ⟨rest, handles, anchors⟩
  | [], tokens, fuel, rest, hproper, htokens, hfuel => by
      obtain rfl := Option.some.inj htokens
      obtain ⟨fuel, rfl⟩ := Nat.exists_eq_add_of_le' (show 1 ≤ fuel from by simp at hfuel; omega)
      exact ⟨[], flowItems_end false, rfl, fun d => (Nat.max_zero d).symm, fun n => rfl⟩
  | item :: items, tokens, fuel, rest, hproper, htokens, hfuel => by
      obtain ⟨mark, tokens, hmark, hrest, rfl⟩ := joined_eq_some htokens
      obtain rfl := Option.some.inj hmark
      obtain ⟨tokens₁, tokens₂, htokens₁, htokens₂, rfl⟩ := joined_eq_some hrest
      simp only [List.length_append, List.length_singleton] at hfuel
      obtain ⟨fuel, rfl⟩ := Nat.exists_eq_add_of_le' (show 1 ≤ fuel by omega)
      have hitem := compose_value item false false (tokens₂ ++ rest) hproper.1 htokens₁
        (show 2 * tokens₁.length ≤ fuel by omega)
      obtain ⟨token, more, rfl, hbegins⟩ := begins_of_tokens htokens₁
      have hitems := compose_items items rest hproper.2 htokens₂
        (show 2 * tokens₂.length ≤ fuel by omega)
      simpa [Json.rereadItems?, Json.nestingItems, separator] using
        ComposesItems.cons false hbegins hitem hitems

theorem compose_members : ∀ (members : List (String × Json)) {tokens : List Token} {fuel : Nat}
    (rest : List Token), Json.AreProperMembers members →
    Json.memberTokens? members = some tokens → 2 * tokens.length ≤ fuel →
    ComposesEntries (flowEntries false fuel ⟨tokens ++ rest, handles, anchors⟩)
      (Json.rereadMembers? members) (Json.nestingMembers members) ⟨rest, handles, anchors⟩
  | [], tokens, fuel, rest, hproper, htokens, hfuel => by
      obtain rfl := Option.some.inj htokens
      obtain ⟨fuel, rfl⟩ := Nat.exists_eq_add_of_le' (show 1 ≤ fuel from by simp at hfuel; omega)
      exact ⟨[], flowEntries_end false, rfl, fun d => (Nat.max_zero d).symm, fun n => rfl⟩
  | (key, member) :: members, tokens, fuel, rest, hproper, htokens, hfuel => by
      obtain ⟨mark, tokens, hmark, hrest, rfl⟩ := joined_eq_some htokens
      obtain rfl := Option.some.inj hmark
      obtain ⟨keys, tokens, hkeys, hmore, rfl⟩ := joined_eq_some hrest
      obtain ⟨tokens₁, tokens₂, htokens₁, htokens₂, rfl⟩ := joined_eq_some hmore
      have hlength := length_keyTokens hkeys
      simp only [List.length_append, List.length_singleton] at hfuel
      obtain ⟨fuel, rfl⟩ := Nat.exists_eq_add_of_le' (show 3 ≤ fuel by omega)
      have hmember := compose_value member false false (tokens₂ ++ rest) hproper.1 htokens₁
        (show 2 * tokens₁.length ≤ fuel + 2 by omega)
      have hmembers := compose_members members rest hproper.2 htokens₂
        (show 2 * tokens₂.length ≤ fuel + 2 by omega)
      simpa [Json.nestingMembers, separator] using
        ComposesEntries.member false hkeys htokens₁ hmember hmembers

end

end Composer

end LogForwarding.Yaml
