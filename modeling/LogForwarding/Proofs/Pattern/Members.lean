import LogForwarding.Proofs.Pattern.Bracket
import Mathlib.Data.List.TakeWhile

/-!
The members of bracket expressions.  Between brackets a POSIX pattern has characters for themselves,
ranges and named classes, and nothing else.  The dialect that compiles the escaped pattern reads the
same items in the same order, unless two hyphens meet, which it takes for an operation on sets, or
for two members where they stand first, or a name stands between colons that is the name of no
class.
-/

namespace LogForwarding.Pattern

/-! ### What a bracket expression says -/

/-- How a member is written in the escaped pattern. -/
def memberForm (c : Char) : LiteralForm :=
  if needsEscape c ∨ c = ']' then .escaped else .verbatim

/-- A class by its name; a circumflex in front takes its complement. -/
def classItem : List Char → ClassItem
  | '^' :: name => .named (String.ofList name) true
  | name => .named (String.ofList name) false

/-- The items of an expression as POSIX reads them: a hyphen between two members makes a range. -/
def classItems : List BracketItem → List ClassItem
  | .member low :: .member '-' :: .member high :: rest => .range low high :: classItems rest
  | .member c :: rest => .literal c (memberForm c) :: classItems rest
  | .named name _ :: rest => classItem name :: classItems rest
  | [] => []

/-- All that stands between the brackets. -/
def Bracket.members (bracket : Bracket) : List BracketItem :=
  if bracket.closeFirst then .member ']' :: bracket.items else bracket.items

/-- The class of characters that an expression stands for. -/
def Bracket.asClass (bracket : Bracket) : Bool × ClassSet :=
  (bracket.negated, .items (classItems bracket.members))

def isKnownClass : List Char → Bool
  | '^' :: name => String.ofList name ∈ classNames
  | name => String.ofList name ∈ classNames

def BracketItem.isKnown : BracketItem → Bool
  | .member _ => true
  | .named name _ => isKnownClass name

/-- Whether hyphens make the same ranges in both dialects: no two of them meet, and none stands
between a member and a class. -/
def plainHyphens : List BracketItem → Bool
  | .member '-' :: .member '-' :: _ => false
  | .member _ :: .member '-' :: .member '-' :: _ => false
  | .member _ :: .member '-' :: .named _ _ :: _ => false
  | .member _ :: .member '-' :: .member _ :: rest => plainHyphens rest
  | _ :: rest => plainHyphens rest
  | [] => true

/-- Whether the first item is a range that begins with a hyphen. -/
def beginsAtHyphen : List BracketItem → Bool
  | .member '-' :: .member '-' :: .member _ :: _ => true
  | _ => false

/-- Whether the dialect that compiles patterns reads the items of an expression as POSIX does. -/
def Bracket.isLiteral (bracket : Bracket) : Bool :=
  bracket.items.all BracketItem.isKnown && plainHyphens bracket.rangeItems &&
    !beginsAtHyphen bracket.members

/-! ### Plain names and plain hyphens -/

theorem notMem_of_mem_classNames {name : String} (hname : name ∈ classNames) :
    ∀ c ∈ name.toList, c ≠ ':' ∧ c ≠ '^' ∧ c ≠ '[' ∧ c ≠ ']' ∧ c ≠ '\\' := by
  have hchars : name.toList.all fun c => c ≠ ':' ∧ c ≠ '^' ∧ c ≠ '[' ∧ c ≠ ']' ∧ c ≠ '\\' := by
    revert name
    decide
  simpa only [List.all_eq_true, decide_eq_true_eq] using hchars

theorem notMem_of_ofList_mem {name : List Char} (hname : String.ofList name ∈ classNames) :
    ∀ c ∈ name, c ≠ ':' ∧ c ≠ '^' ∧ c ≠ '[' ∧ c ≠ ']' ∧ c ≠ '\\' := by
  simpa only [String.toList_ofList] using notMem_of_mem_classNames hname

/-- A known class has a plain name. -/
theorem isClassName_of_isKnownClass {name : List Char} (hknown : isKnownClass name) :
    isClassName name := by
  have hplain : ∀ name : List Char, String.ofList name ∈ classNames → isClassName name := by
    intro name hname
    simp only [isClassName, List.all_eq_true, decide_eq_true_eq]
    intro c hc
    exact (notMem_of_ofList_mem hname c hc).2.2
  unfold isKnownClass at hknown
  split at hknown
  · exact isClassName_cons.mpr ⟨by decide, hplain _ (of_decide_eq_true hknown)⟩
  · exact hplain _ (of_decide_eq_true hknown)

theorem noClassEndsRange_of_plainHyphens {items : List BracketItem}
    (hhyphens : plainHyphens items) : noClassEndsRange items := by
  fun_induction plainHyphens items <;> simp_all [noClassEndsRange]

/-- An expression whose items are read as POSIX has them ends where POSIX has its end. -/
theorem Bracket.isPlain_of_isLiteral {bracket : Bracket} (hliteral : bracket.isLiteral) :
    bracket.isPlain := by
  simp only [isLiteral, Bool.and_eq_true, List.all_eq_true] at hliteral
  obtain ⟨⟨hknown, hhyphens⟩, -⟩ := hliteral
  rw [isPlain, Bool.and_eq_true, List.all_eq_true]
  refine ⟨fun item hitem => ?_, noClassEndsRange_of_plainHyphens hhyphens⟩
  cases item with
  | member c => rfl
  | named name closed => exact isClassName_of_isKnownClass (hknown _ hitem)

/-! ### Reading one item -/

variable {seen : List ClassItem} {fuel : Nat} {cs rest more : List Char} {set : ClassSet}
  {negated : Bool}

/-- The characters of a member, with a backslash in front where the dialect expects one. -/
def memberText (c : Char) : List Char :=
  if memberForm c = .escaped then ['\\', c] else [c]

/-- The characters of an item in the escaped pattern, wherever it stands. -/
def itemText : BracketItem → List Char
  | .member c => memberText c
  | .named name closed => (BracketItem.named name closed).text

abbrev itemsText (items : List BracketItem) : List Char :=
  items.flatMap itemText

theorem isMeta_of_memberForm {c : Char} (hform : memberForm c = .escaped) : isMeta c := by
  unfold memberForm at hform
  split at hform
  · rename_i hc
    rcases hc with hescape | rfl
    · exact isMeta_of_needsEscape hescape
    · decide
  · cases hform

theorem memberForm_of_ne {c : Char} (hform : memberForm c ≠ .escaped) :
    memberForm c = .verbatim ∧ c ∉ ['\\', '[', '&', '~', ']'] := by
  unfold memberForm at hform ⊢
  split at hform
  · exact absurd rfl hform
  · rename_i hc
    rw [if_neg hc]
    refine ⟨rfl, ?_⟩
    simpa [needsEscape, and_assoc] using hc

theorem memberText_hyphen : memberText '-' = ['-'] := by decide

/-- A member is read as itself, in the form in which it is written. -/
theorem readClassPrimitive_memberText (c : Char) (more : List Char) :
    readClassPrimitive (memberText c ++ more) = some (.literal c (memberForm c), more) := by
  unfold memberText
  by_cases hform : memberForm c = .escaped
  · rw [if_pos hform, hform]
    simp [readClassPrimitive, readEscape, isMeta_of_memberForm hform]
  · obtain ⟨hverbatim, hc⟩ := memberForm_of_ne hform
    rw [if_neg hform, hverbatim]
    exact readClassPrimitive_of_ne (fun h => hc (by simp [h])) more

/-- A member begins with itself or with a backslash, and never with what ends or opens something. -/
theorem exists_memberText_eq_cons (c : Char) : ∃ head tail, memberText c = head :: tail ∧
    head ∉ ['[', '&', '~', ']'] ∧ (head ≠ '\\' → head = c ∧ tail = []) := by
  unfold memberText
  by_cases hform : memberForm c = .escaped
  · rw [if_pos hform]
    exact ⟨'\\', [c], rfl, by decide, fun h => absurd rfl h⟩
  · rw [if_neg hform]
    have hc := (memberForm_of_ne hform).2
    exact ⟨c, [], rfl, fun hmem => hc (List.mem_cons_of_mem _ hmem), fun _ => ⟨rfl, rfl⟩⟩

/-- A member by itself: no hyphen follows, or one behind which the dialect expects no bound. -/
theorem readRange_single (c : Char) (hmore : more ≠ [])
    (hhyphen : more.head? = some '-' → ∃ d left, more = '-' :: d :: left ∧ (d = ']' ∨ d = '-')) :
    readRange (memberText c ++ more) = some (.literal c (memberForm c), more) := by
  rw [readRange, readClassPrimitive_memberText]
  cases more with
  | nil => exact absurd rfl hmore
  | cons d left =>
      by_cases hd : d = '-'
      · obtain ⟨e, left, hleft, rfl | rfl⟩ := hhyphen (by rw [hd, List.head?_cons]) <;>
          rw [hleft] <;> rfl
      · simp [itemOfAst, hd]

/-- Two members with a hyphen between them, of which the second is not a hyphen. -/
theorem readRange_range (low : Char) {high : Char} (hhigh : high ≠ '-') (more : List Char) :
    readRange (memberText low ++ '-' :: (memberText high ++ more)) =
      if low ≤ high then some (.range low high, more) else none := by
  have hlast := readClassPrimitive_memberText high more
  obtain ⟨head, tail, htext, hhead, hverbatim⟩ := exists_memberText_eq_cons high
  have hne : head ≠ '-' := by
    rintro rfl
    exact hhigh (hverbatim (by decide)).1.symm
  have hclose : head ≠ ']' := fun h => hhead (by simp [h])
  rw [htext, List.cons_append] at hlast
  rw [readRange, readClassPrimitive_memberText, htext, List.cons_append]
  simp [hne, hclose, hlast]

/-- A member that does not begin an operation begins a single item or a range. -/
theorem readSet_member {c : Char} (hoperation : c = '-' → more.head? ≠ some '-') :
    readSet none seen (fuel + 1) (memberText c ++ more) =
      (readRange (memberText c ++ more)).bind fun found =>
        readSet none (found.1 :: seen) fuel found.2 := by
  obtain ⟨head, tail, htext, hhead, hverbatim⟩ := exists_memberText_eq_cons c
  simp only [List.mem_cons, List.not_mem_nil, or_false, not_or] at hhead
  have hdouble : ∀ left, head = '-' → tail ++ more ≠ '-' :: left := by
    rintro left rfl hmore
    obtain ⟨hc, rfl⟩ := hverbatim (by decide)
    rw [List.nil_append] at hmore
    exact hoperation hc.symm (by rw [hmore, List.head?_cons])
  rw [htext, List.cons_append, readSet]
  · rfl
  all_goals
    intros
    simp_all

/-- A name ends at the first colon. -/
theorem takeWhile_name {name : List Char} (hname : String.ofList name ∈ classNames)
    (more : List Char) :
    (name ++ ':' :: more).takeWhile (· ≠ ':') = name ∧
      (name ++ ':' :: more).dropWhile (· ≠ ':') = ':' :: more := by
  have hcolon : ∀ c ∈ name, decide (c ≠ ':') := fun c hc =>
    decide_eq_true (notMem_of_ofList_mem hname c hc).1
  rw [List.takeWhile_append_of_pos hcolon, List.dropWhile_append_of_pos hcolon]
  simp

/-- A known class is one item. -/
theorem readNamedClass_of_isKnownClass {name : List Char} (hknown : isKnownClass name)
    (more : List Char) :
    readNamedClass (':' :: (name ++ ':' :: ']' :: more)) = some (classItem name, more) := by
  cases name with
  | nil => cases hknown
  | cons c name =>
      by_cases hc : c = '^'
      · subst hc
        have hname := of_decide_eq_true hknown
        obtain ⟨htake, hdrop⟩ := takeWhile_name hname (']' :: more)
        simp only [readNamedClass, List.cons_append, htake, hdrop, hname, if_true, classItem]
      · have hname : String.ofList (c :: name) ∈ classNames := by
          simpa [isKnownClass, hc] using hknown
        obtain ⟨htake, hdrop⟩ := takeWhile_name hname (']' :: more)
        simp only [ne_eq, decide_not, List.cons_append] at htake hdrop
        simpa [readNamedClass, classItem, hc, htake, hdrop] using hname

/-- A class leaves what stands behind it. -/
theorem readSet_class {name : List Char} (hknown : isKnownClass name) :
    readSet none seen (fuel + 1) ('[' :: ':' :: (name ++ ':' :: ']' :: more)) =
      readSet none (classItem name :: seen) fuel more := by
  rw [readSet]
  simp [readNamedClass_of_isKnownClass hknown]

/-! ### Reading items -/

/-- Whether a class has its end. -/
def BracketItem.isClosed : BracketItem → Bool
  | .member _ => true
  | .named _ closed => closed

theorem plainHyphens_range {low high : Char} {items : List BracketItem} :
    plainHyphens (.member low :: .member '-' :: .member high :: items) ↔
      low ≠ '-' ∧ high ≠ '-' ∧ plainHyphens items := by
  by_cases hlow : low = '-'
  · simp [hlow, plainHyphens]
  · by_cases hhigh : high = '-' <;> simp [hlow, hhigh, plainHyphens]

theorem plainHyphens_single {c : Char} {items : List BracketItem}
    (hsingle : ∀ high rest, items ≠ .member '-' :: .member high :: rest) :
    plainHyphens (.member c :: items) ↔ (c = '-' → items.head? ≠ some (.member '-')) ∧
      (∀ name closed rest, items ≠ .member '-' :: .named name closed :: rest) ∧
        plainHyphens items := by
  match items with
  | [] => simp [plainHyphens]
  | .named name closed :: items => simp [plainHyphens]
  | .member d :: items =>
      by_cases hd : d = '-'
      · subst hd
        match items with
        | [] => by_cases hc : c = '-' <;> simp [hc, plainHyphens]
        | .member high :: items => exact absurd rfl (hsingle high items)
        | .named name closed :: items => by_cases hc : c = '-' <;> simp [hc, plainHyphens]
      · simp [hd, plainHyphens]

theorem itemsText_cons (item : BracketItem) (items : List BracketItem) (tail : List Char) :
    itemsText (item :: items) ++ tail = itemText item ++ (itemsText items ++ tail) := by
  rw [itemsText, List.flatMap_cons, List.append_assoc]

/-- What begins with a character that is neither a bracket nor a backslash begins with that member. -/
theorem exists_member_of_text {items : List BracketItem} {c : Char} (hc : c ∉ ['[', ']', '\\'])
    (hhead : (itemsText items ++ ']' :: more).head? = some c) :
    ∃ left, items = .member c :: left := by
  simp only [List.mem_cons, List.not_mem_nil, or_false, not_or] at hc
  obtain ⟨hopen, hclose, hescape⟩ := hc
  cases items with
  | nil => exact absurd (Option.some.inj hhead).symm hclose
  | cons item items =>
      rw [itemsText_cons] at hhead
      cases item with
      | named name closed => exact absurd (Option.some.inj hhead).symm hopen
      | member d =>
          obtain ⟨head, tail, htext, -, hverbatim⟩ := exists_memberText_eq_cons d
          rw [itemText, htext, List.cons_append, List.head?_cons] at hhead
          obtain rfl := Option.some.inj hhead
          obtain ⟨rfl, -⟩ := hverbatim hescape
          exact ⟨items, rfl⟩

/-- Items do not begin with a closing bracket. -/
theorem head?_itemsText_ne {items : List BracketItem} (hne : items ≠ []) :
    (itemsText items ++ ']' :: more).head? ≠ some ']' := by
  cases items with
  | nil => exact absurd rfl hne
  | cons item items =>
      rw [itemsText_cons]
      cases item with
      | named name closed => simp [itemText, BracketItem.text]
      | member c =>
          obtain ⟨head, tail, htext, hhead, -⟩ := exists_memberText_eq_cons c
          rw [itemText, htext, List.cons_append, List.head?_cons]
          intro heq
          exact hhead (by simp [Option.some.inj heq])

/-- Behind a single member a hyphen stands last, or a class stands behind it. -/
theorem hyphen_behind_single {items : List BracketItem}
    (hsingle : ∀ high rest, items ≠ .member '-' :: .member high :: rest)
    (hhead : (itemsText items ++ ']' :: more).head? = some '-') :
    items = [.member '-'] ∨
      ∃ name closed rest, items = .member '-' :: .named name closed :: rest := by
  obtain ⟨left, rfl⟩ := exists_member_of_text (by decide) hhead
  match left with
  | [] => exact Or.inl rfl
  | .member high :: left => exact absurd rfl (hsingle high left)
  | .named name closed :: left => exact Or.inr ⟨name, closed, left, rfl⟩

/-- A member that is no bound of a range and begins no operation is an item by itself. -/
theorem readSet_single {c : Char} {items : List BracketItem}
    (hsingle : ∀ high rest, items ≠ .member '-' :: .member high :: rest)
    (hoperation : c = '-' → items.head? ≠ some (.member '-'))
    (hclass : ∀ name closed rest, items ≠ .member '-' :: .named name closed :: rest) :
    readSet none seen (fuel + 1) (memberText c ++ (itemsText items ++ ']' :: more)) =
      readSet none (.literal c (memberForm c) :: seen) fuel (itemsText items ++ ']' :: more) := by
  have hlast : (itemsText items ++ ']' :: more).head? = some '-' → items = [.member '-'] := by
    intro hhead
    rcases hyphen_behind_single hsingle hhead with hitems | ⟨name, closed, rest, hitems⟩
    · exact hitems
    · exact absurd hitems (hclass name closed rest)
  have hhyphen : c = '-' → (itemsText items ++ ']' :: more).head? ≠ some '-' := by
    intro hc hhead
    exact hoperation hc (by rw [hlast hhead, List.head?_cons])
  rw [readSet_member hhyphen, readRange_single c (by simp)]
  · rfl
  · intro hhead
    rw [hlast hhead]
    exact ⟨']', more, rfl, Or.inl rfl⟩

/-- The items are read one by one up to the closing bracket behind them. -/
theorem readSet_items_eq {items : List BracketItem} (hclosed : ∀ item ∈ items, item.isClosed)
    (hknown : ∀ item ∈ items, item.isKnown) (hhyphens : plainHyphens items)
    (hread : readSet none seen fuel (itemsText items ++ ']' :: more) = some (set, rest)) :
    set = .items (seen.reverse ++ classItems items) ∧ rest = more := by
  fun_induction classItems items generalizing seen fuel with
  | case1 low high items ih =>
      obtain ⟨hlow, hhigh, hhyphens⟩ := plainHyphens_range.mp hhyphens
      have hclosed : ∀ item ∈ items, item.isClosed := fun item hitem =>
        hclosed item (by simp [hitem])
      have hknown : ∀ item ∈ items, item.isKnown := fun item hitem => hknown item (by simp [hitem])
      cases fuel with
      | zero => simp [readSet] at hread
      | succ fuel =>
          simp only [itemsText_cons, itemText, memberText_hyphen, List.cons_append,
            List.nil_append] at hread
          rw [readSet_member (fun hc => absurd hc hlow), readRange_range low hhigh] at hread
          split at hread
          · obtain ⟨rfl, rfl⟩ := ih hclosed hknown hhyphens hread
            simp
          · cases hread
  | case2 c items hsingle ih =>
      obtain ⟨-, hclosed⟩ := List.forall_mem_cons.mp hclosed
      obtain ⟨-, hknown⟩ := List.forall_mem_cons.mp hknown
      obtain ⟨hoperation, hclass, hrest⟩ := (plainHyphens_single hsingle).mp hhyphens
      cases fuel with
      | zero => simp [readSet] at hread
      | succ fuel =>
          rw [itemsText_cons, itemText, readSet_single hsingle hoperation hclass] at hread
          obtain ⟨rfl, rfl⟩ := ih hclosed hknown hrest hread
          simp
  | case3 name closed items ih =>
      obtain ⟨hended, hothers⟩ := List.forall_mem_cons.mp hclosed
      obtain ⟨hclass, hclasses⟩ := List.forall_mem_cons.mp hknown
      obtain rfl : closed = true := hended
      have hrest : plainHyphens items := by simpa [plainHyphens] using hhyphens
      cases fuel with
      | zero => simp [readSet] at hread
      | succ fuel =>
          rw [itemsText_cons] at hread
          simp only [itemText, BracketItem.text, if_true, List.cons_append,
            List.append_assoc, List.nil_append] at hread
          rw [readSet_class hclass] at hread
          obtain ⟨rfl, rfl⟩ := ih hothers hclasses hrest hread
          simp
  | case4 =>
      cases fuel with
      | zero => simp [readSet] at hread
      | succ fuel =>
          simp [readSet, applyPending] at hread
          simp [hread]

/-! ### Reading an expression -/

/-- Between brackets that are closed all items are complete. -/
theorem WholeItems.isWhole {items : List BracketItem} (hwhole : WholeItems true items) :
    ∀ item ∈ items, item.IsWhole := by
  induction items with
  | nil => simp
  | cons item items ih =>
      rcases hwhole with ⟨hitem, hitems⟩ | ⟨hopen, -⟩
      · exact List.forall_mem_cons.mpr ⟨hitem, ih hitems⟩
      · cases hopen

theorem BracketItem.IsWhole.escapedText_eq {item : BracketItem} (hitem : item.IsWhole) :
    item.escapedText = itemText item := by
  cases item with
  | named name closed => rfl
  | member c =>
      have hclose : c ≠ ']' := hitem
      by_cases hescape : needsEscape c <;>
        simp [BracketItem.escapedText, itemText, memberText, memberForm, hescape, hclose]

/-- The escaped text of a closed expression, by its members. -/
theorem Bracket.Scanned.escapedText_eq {bracket : Bracket} {behind : List Char}
    (hscanned : bracket.Scanned behind) (hclosed : bracket.closed) (more : List Char) :
    bracket.escapedText.tail ++ more =
      (if bracket.negated then ['^'] else []) ++ (itemsText bracket.members ++ ']' :: more) := by
  have hwhole := hscanned.whole
  rw [hclosed] at hwhole
  have htext : bracket.items.flatMap BracketItem.escapedText = itemsText bracket.items := by
    rw [itemsText, List.flatMap_def, List.flatMap_def]
    congr 1
    exact List.map_congr_left fun item hitem => (hwhole.isWhole item hitem).escapedText_eq
  have hclose : itemText (.member ']') = ['\\', ']'] := by decide
  cases hfirst : bracket.closeFirst <;>
    simp [escapedText, members, htext, hclosed, hfirst, hclose]

/-- The items among which ranges are looked for, by the members. -/
theorem Bracket.rangeItems_eq (bracket : Bracket) :
    bracket.rangeItems = bracket.members.dropWhile (· = .member '-') := by
  unfold rangeItems members
  split
  · rw [List.dropWhile_cons_of_neg (by decide)]
  · rfl

/-- Hyphens that stand first are members by themselves. -/
theorem classItems_eq_hyphens {items : List BracketItem} (hbegin : beginsAtHyphen items = false) :
    classItems items = (items.takeWhile (· = .member '-')).map (fun _ => .literal '-' .verbatim) ++
      classItems (items.dropWhile (· = .member '-')) := by
  induction items with
  | nil => rfl
  | cons item items ih =>
      by_cases hitem : item = .member '-'
      · subst hitem
        have hsingle : ∀ high rest, items ≠ .member '-' :: .member high :: rest := by
          rintro high rest rfl
          simp [beginsAtHyphen] at hbegin
        have hrest : beginsAtHyphen items = false := by
          unfold beginsAtHyphen
          split
          · exact absurd rfl (hsingle '-' _)
          · rfl
        have hfirst : classItems (.member '-' :: items) =
            .literal '-' .verbatim :: classItems items := by
          rw [classItems]
          · rfl
          · exact hsingle
        rw [hfirst, ih hrest]
        simp
      · rw [List.takeWhile_cons_of_neg (by simpa using hitem),
          List.dropWhile_cons_of_neg (by simpa using hitem)]
        rfl

/-- The hyphens that stand first in the text are those among the items. -/
theorem takeWhile_itemsText (items : List BracketItem) (more : List Char) :
    (itemsText items ++ ']' :: more).takeWhile (· = '-') =
        (items.takeWhile (· = .member '-')).map (fun _ => '-') ∧
      (itemsText items ++ ']' :: more).dropWhile (· = '-') =
        itemsText (items.dropWhile (· = .member '-')) ++ ']' :: more := by
  induction items with
  | nil => exact ⟨rfl, rfl⟩
  | cons item items ih =>
      by_cases hitem : item = .member '-'
      · subst hitem
        simpa [itemText, memberText_hyphen] using ih
      · have hhead : (itemsText (item :: items) ++ ']' :: more).head? ≠ some '-' := by
          intro hhead
          obtain ⟨left, hleft⟩ := exists_member_of_text (by decide) hhead
          exact hitem (List.cons.inj hleft).1
        obtain ⟨c, text, htext⟩ : ∃ c text, itemsText (item :: items) ++ ']' :: more = c :: text :=
          List.exists_cons_of_ne_nil (by simp)
        rw [htext, List.head?_cons, ne_eq, Option.some.injEq] at hhead
        rw [htext]
        simpa [hitem, hhead] using htext.symm

/-- What does not begin with a circumflex is not taken for a negation. -/
theorem head?_itemsText_caret {inverted : Bool} {items : List BracketItem}
    (hcaret : inverted = false → items.head? ≠ some (.member '^')) :
    inverted = false → (itemsText items ++ ']' :: more).head? ≠ some '^' := by
  intro hinverted hhead
  obtain ⟨left, rfl⟩ := exists_member_of_text (by decide) hhead
  exact hcaret hinverted rfl

/-- Members are read as POSIX reads them. -/
theorem readBracket_members {inverted : Bool} {items : List BracketItem}
    (hclosed : ∀ item ∈ items, item.isClosed) (hknown : ∀ item ∈ items, item.isKnown)
    (hhyphens : plainHyphens (items.dropWhile (· = .member '-')))
    (hbegin : beginsAtHyphen items = false)
    (hcaret : inverted = false → items.head? ≠ some (.member '^')) (hne : items ≠ [])
    (hread : readBracket fuel ((if inverted then ['^'] else []) ++
      (itemsText items ++ ']' :: more)) = some (negated, set, rest)) :
    negated = inverted ∧ set = .items (classItems items) ∧ rest = more := by
  have hdropped := (List.dropWhile_sublist (· = BracketItem.member '-') (l := items)).subset
  obtain ⟨rfl, fuel, hset⟩ := readBracket_first inverted (head?_itemsText_caret hcaret) hread
  obtain ⟨htake, hdrop⟩ := takeWhile_itemsText items more
  rw [readFirstMembers_eq (head?_itemsText_ne hne), htake, hdrop] at hset
  obtain ⟨rfl, rfl⟩ := readSet_items_eq (fun item hitem => hclosed item (hdropped hitem))
    (fun item hitem => hknown item (hdropped hitem)) hhyphens hset
  rw [List.reverse_reverse, List.map_map, classItems_eq_hyphens hbegin]
  exact ⟨rfl, rfl, rfl⟩

/-- Of a closed expression all members have an end. -/
theorem Bracket.Scanned.members_isClosed {bracket : Bracket} {behind : List Char}
    (hscanned : bracket.Scanned behind) (hclosed : bracket.closed) :
    ∀ item ∈ bracket.members, item.isClosed := by
  have hwhole := hscanned.whole
  rw [hclosed] at hwhole
  have hitems : ∀ item ∈ bracket.items, item.isClosed := by
    intro item hitem
    have hitem := hwhole.isWhole item hitem
    cases item with
    | member c => rfl
    | named name closed => exact hitem
  unfold members
  split
  · exact List.forall_mem_cons.mpr ⟨rfl, hitems⟩
  · exact hitems

/-- A closing bracket in front is a member like any other. -/
theorem Bracket.isKnown_members {bracket : Bracket} :
    (∀ item ∈ bracket.members, item.isKnown) ↔ ∀ item ∈ bracket.items, item.isKnown := by
  unfold members
  split <;> simp [BracketItem.isKnown]

theorem Bracket.isLiteral_iff {bracket : Bracket} : bracket.isLiteral ↔
    (∀ item ∈ bracket.members, item.isKnown) ∧
      plainHyphens (bracket.members.dropWhile (· = .member '-')) ∧
        beginsAtHyphen bracket.members = false := by
  rw [isLiteral, rangeItems_eq, isKnown_members]
  simp [and_assoc]

/-- A closed expression has members, and none of them is taken for a negation. -/
theorem Bracket.Scanned.members_ne {bracket : Bracket} {behind : List Char}
    (hscanned : bracket.Scanned behind) (hclosed : bracket.closed) :
    bracket.members ≠ [] ∧
      (bracket.negated = false → bracket.members.head? ≠ some (.member '^')) := by
  unfold members
  split
  · simp
  · rename_i hfirst
    rw [Bool.not_eq_true] at hfirst
    exact ⟨hscanned.items_ne_nil hfirst hclosed, fun hnegated => hscanned.head_ne hnegated hfirst⟩

/-- An expression in the escaped pattern is read as the class that it stands for, up to its end. -/
theorem Bracket.Scanned.readBracket_eq {bracket : Bracket} {behind : List Char}
    (hscanned : bracket.Scanned behind) (hliteral : bracket.isLiteral)
    (hmore : behind = [] → more = [])
    (hread : readBracket fuel (bracket.escapedText.tail ++ more) = some (negated, set, rest)) :
    (negated, set) = bracket.asClass ∧ rest = more := by
  have hclosed := hscanned.closed_of_readBracket (isPlain_of_isLiteral hliteral) hmore hread
  obtain ⟨hne, hcaret⟩ := hscanned.members_ne hclosed
  obtain ⟨hknown, hhyphens, hbegin⟩ := isLiteral_iff.mp hliteral
  rw [hscanned.escapedText_eq hclosed] at hread
  obtain ⟨rfl, rfl, hrest⟩ := readBracket_members (hscanned.members_isClosed hclosed) hknown
    hhyphens hbegin hcaret hne hread
  exact ⟨rfl, hrest⟩

/-! ### When POSIX and the dialect part -/

/-- What is read as mere items begins with those that were read first, and no operation is in it. -/
theorem readSet_front {pending : Option (SetOperation × ClassSet)} {items : List ClassItem}
    (hread : readSet pending seen fuel cs = some (.items items, rest)) :
    pending = none ∧ seen.reverse <+: items := by
  induction fuel generalizing pending seen cs with
  | zero => simp [readSet] at hread
  | succ fuel ih =>
      have hmore : ∀ {item : ClassItem} {left : List Char},
          readSet pending (item :: seen) fuel left = some (.items items, rest) →
          pending = none ∧ seen.reverse <+: items := by
        intro item left hread
        obtain ⟨hpending, hfront⟩ := ih hread
        rw [List.reverse_cons] at hfront
        exact ⟨hpending, (List.prefix_append _ _).trans hfront⟩
      unfold readSet at hread
      split at hread
      · cases hread
      · cases pending with
        | none =>
            cases hread
            exact ⟨rfl, List.prefix_rfl⟩
        | some operation => cases hread
      · cases (ih hread).1
      · cases (ih hread).1
      · cases (ih hread).1
      · split at hread
        · exact hmore hread
        · obtain ⟨_, -, hread⟩ := Option.bind_eq_some_iff.mp hread
          exact hmore hread
      · obtain ⟨_, -, hread⟩ := Option.bind_eq_some_iff.mp hread
        exact hmore hread

/-- The item that is read next is the one that is found behind those read first. -/
theorem eq_of_readSet {item expected : ClassItem} {others : List ClassItem}
    (hread : readSet none (item :: seen) fuel cs =
      some (.items (seen.reverse ++ expected :: others), rest)) : item = expected := by
  obtain ⟨-, hfront⟩ := readSet_front hread
  rw [List.reverse_cons, List.prefix_append_right_inj] at hfront
  exact (List.cons_prefix_cons.mp hfront).1

/-- Two hyphens are an operation. -/
theorem not_readSet_hyphens {items : List ClassItem} :
    readSet none seen (fuel + 1) ('-' :: '-' :: cs) ≠ some (.items items, rest) := by
  intro hread
  rw [readSet] at hread
  cases (readSet_front hread).1

theorem named_of_readNamedClass {item : ClassItem} (hread : readNamedClass cs = some (item, rest)) :
    ∃ name inverted, item = .named name inverted ∧ name ∈ classNames := by
  unfold readNamedClass at hread
  split at hread
  · split at hread
    split at hread
    · dsimp only at hread
      split at hread
      · rename_i hname
        cases hread
        exact ⟨_, _, rfl, hname⟩
      · cases hread
    · cases hread
  · cases hread

/-- A class that is read as a known one is known. -/
theorem isKnownClass_of_classItem {name : List Char} {known : String} {inverted : Bool}
    (hitem : classItem name = .named known inverted) (hknown : known ∈ classNames) :
    isKnownClass name := by
  unfold classItem at hitem
  split at hitem
  · cases hitem
    exact decide_eq_true hknown
  · cases hitem
    unfold isKnownClass
    split
    · rename_i hcaret
      exact absurd rfl (hcaret _)
    · exact decide_eq_true hknown

/-- What is read at the opening of a class is that class only if it is known. -/
theorem isKnownClass_of_readSet {name : List Char} {others : List ClassItem}
    (hread : readSet none seen (fuel + 1) ('[' :: cs) =
      some (.items (seen.reverse ++ classItem name :: others), rest)) : isKnownClass name := by
  rw [readSet] at hread
  split at hread
  · rename_i hnamed
    obtain ⟨known, inverted, rfl, hknown⟩ := named_of_readNamedClass hnamed
    exact isKnownClass_of_classItem (eq_of_readSet hread).symm hknown
  · obtain ⟨⟨negated, set, left⟩, -, hread⟩ := Option.bind_eq_some_iff.mp hread
    have hitem := eq_of_readSet hread
    unfold classItem at hitem
    split at hitem <;> cases hitem

/-- A class stands where a bound of a range is looked for. -/
theorem readRange_class (c : Char) (cs : List Char) :
    readRange (memberText c ++ '-' :: '[' :: cs) =
      if c ≤ '[' then some (.range c '[', cs) else none := by
  rw [readRange, readClassPrimitive_memberText]
  simp [readClassPrimitive_of_ne]

/-- What is read as a range of POSIX has no hyphen for a bound. -/
theorem range_of_readSet {low high : Char} {items : List BracketItem} {others : List ClassItem}
    (hread : readSet none seen (fuel + 1)
        (itemsText (.member low :: .member '-' :: .member high :: items) ++ ']' :: more) =
      some (.items (seen.reverse ++ .range low high :: others), rest)) :
    low ≠ '-' ∧ high ≠ '-' ∧
      readSet none (.range low high :: seen) fuel (itemsText items ++ ']' :: more) =
        some (.items (seen.reverse ++ .range low high :: others), rest) := by
  simp only [itemsText_cons, itemText, memberText_hyphen, List.cons_append,
    List.nil_append] at hread
  have hlow : low ≠ '-' := by
    rintro rfl
    rw [memberText_hyphen] at hread
    exact not_readSet_hyphens hread
  rw [readSet_member (fun hc => absurd hc hlow)] at hread
  have hhigh : high ≠ '-' := by
    rintro rfl
    rw [memberText_hyphen, List.cons_append, readRange_single low (by simp) (by simp)] at hread
    cases eq_of_readSet hread
  rw [readRange_range low hhigh] at hread
  split at hread
  · exact ⟨hlow, hhigh, hread⟩
  · cases hread

/-- What is read as a member of POSIX is no half of an operation, and no class follows it as the
bound of a range. -/
theorem single_of_readSet {c : Char} {items : List BracketItem} {others : List ClassItem}
    (hread : readSet none seen (fuel + 1) (itemsText (.member c :: items) ++ ']' :: more) =
      some (.items (seen.reverse ++ .literal c (memberForm c) :: others), rest)) :
    (c = '-' → items.head? ≠ some (.member '-')) ∧
      ∀ name closed left, items ≠ .member '-' :: .named name closed :: left := by
  rw [itemsText_cons, itemText] at hread
  have hoperation : c = '-' → items.head? ≠ some (.member '-') := by
    rintro rfl hhead
    obtain ⟨left, rfl⟩ := List.head?_eq_some_iff.mp hhead
    rw [itemsText_cons, itemText, memberText_hyphen] at hread
    exact not_readSet_hyphens hread
  refine ⟨hoperation, ?_⟩
  rintro name closed left rfl
  have hc : c ≠ '-' := fun hc => hoperation hc rfl
  simp only [itemsText_cons, itemText, memberText_hyphen, BracketItem.text, List.cons_append,
    List.nil_append] at hread
  rw [readSet_member (fun h => absurd h hc), readRange_class] at hread
  split at hread
  · cases eq_of_readSet hread
  · cases hread

/-- Items that are read as POSIX has them are known and have plain hyphens. -/
theorem plainHyphens_of_readSet {items : List BracketItem} {found : List ClassItem}
    (hclosed : ∀ item ∈ items, item.isClosed)
    (hread : readSet none seen fuel (itemsText items ++ ']' :: more) = some (.items found, rest))
    (hfound : found = seen.reverse ++ classItems items) :
    (∀ item ∈ items, item.isKnown) ∧ plainHyphens items := by
  fun_induction classItems items generalizing seen fuel with
  | case1 low high items ih =>
      have hclosed : ∀ item ∈ items, item.isClosed := fun item hitem =>
        hclosed item (by simp [hitem])
      cases fuel with
      | zero => simp [readSet] at hread
      | succ fuel =>
          obtain ⟨hlow, hhigh, hread⟩ := range_of_readSet (hfound ▸ hread)
          obtain ⟨hknown, hhyphens⟩ := ih hclosed (hfound ▸ hread) (by simp [hfound])
          refine ⟨?_, plainHyphens_range.mpr ⟨hlow, hhigh, hhyphens⟩⟩
          simpa [BracketItem.isKnown] using hknown
  | case2 c items hsingle ih =>
      obtain ⟨-, hclosed⟩ := List.forall_mem_cons.mp hclosed
      cases fuel with
      | zero => simp [readSet] at hread
      | succ fuel =>
          obtain ⟨hoperation, hclass⟩ := single_of_readSet (hfound ▸ hread)
          rw [itemsText_cons, itemText, readSet_single hsingle hoperation hclass] at hread
          obtain ⟨hknown, hhyphens⟩ := ih hclosed hread (by simp [hfound])
          exact ⟨List.forall_mem_cons.mpr ⟨rfl, hknown⟩,
            (plainHyphens_single hsingle).mpr ⟨hoperation, hclass, hhyphens⟩⟩
  | case3 name closed items ih =>
      obtain ⟨hended, hothers⟩ := List.forall_mem_cons.mp hclosed
      obtain rfl : closed = true := hended
      cases fuel with
      | zero => simp [readSet] at hread
      | succ fuel =>
          simp only [itemsText_cons, itemText, BracketItem.text, if_true, List.cons_append,
            List.append_assoc, List.nil_append] at hread
          have hknown : isKnownClass name := isKnownClass_of_readSet (hfound ▸ hread)
          rw [readSet_class hknown] at hread
          obtain ⟨hothers, hhyphens⟩ := ih hothers hread (by simp [hfound])
          exact ⟨List.forall_mem_cons.mpr ⟨hknown, hothers⟩, by simpa [plainHyphens] using hhyphens⟩
  | case4 => simp [plainHyphens]

/-- Hyphens in front are members, and known. -/
theorem isKnown_of_dropWhile {items : List BracketItem}
    (hknown : ∀ item ∈ items.dropWhile (· = .member '-'), item.isKnown) :
    ∀ item ∈ items, item.isKnown := by
  intro item hitem
  rw [← List.takeWhile_append_dropWhile (p := (· = BracketItem.member '-')) (l := items)] at hitem
  rcases List.mem_append.mp hitem with hfirst | hrest
  · have hhyphen : item = .member '-' := by simpa using List.mem_takeWhile_imp hfirst
    rw [hhyphen]
    rfl
  · exact hknown item hrest

/-- Two hyphens in front are read as two members, not as the bound of a range. -/
theorem beginsAtHyphen_of_front {items : List BracketItem}
    (hfront : (items.takeWhile (· = .member '-')).map (fun _ => ClassItem.literal '-' .verbatim) <+:
      classItems items) : beginsAtHyphen items = false := by
  unfold beginsAtHyphen
  split
  · simp [classItems] at hfront
  · rfl

/-- A closed expression that is read as the class that it stands for is literal. -/
theorem Bracket.Scanned.isLiteral_of_readBracket {bracket : Bracket} {behind : List Char}
    (hscanned : bracket.Scanned behind) (hclosed : bracket.closed)
    (hread : readBracket fuel (bracket.escapedText.tail ++ more) =
      some (negated, .items (classItems bracket.members), rest)) : bracket.isLiteral := by
  obtain ⟨hne, hcaret⟩ := hscanned.members_ne hclosed
  rw [hscanned.escapedText_eq hclosed] at hread
  obtain ⟨-, fuel, hset⟩ := readBracket_first bracket.negated (head?_itemsText_caret hcaret) hread
  obtain ⟨htake, hdrop⟩ := takeWhile_itemsText bracket.members more
  rw [readFirstMembers_eq (head?_itemsText_ne hne), htake, hdrop] at hset
  obtain ⟨-, hfront⟩ := readSet_front hset
  rw [List.reverse_reverse, List.map_map] at hfront
  have hbegin := beginsAtHyphen_of_front hfront
  have hdropped :=
    (List.dropWhile_sublist (· = BracketItem.member '-') (l := bracket.members)).subset
  obtain ⟨hknown, hhyphens⟩ := plainHyphens_of_readSet
    (fun item hitem => hscanned.members_isClosed hclosed item (hdropped hitem)) hset (by
      rw [List.reverse_reverse, List.map_map]
      exact classItems_eq_hyphens hbegin)
  exact isLiteral_iff.mpr ⟨isKnown_of_dropWhile hknown, hhyphens, hbegin⟩

end LogForwarding.Pattern
