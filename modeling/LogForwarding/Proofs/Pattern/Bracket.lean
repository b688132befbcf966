import LogForwarding.Pattern.Grammar
import LogForwarding.Pattern.Piece

/-!
Where bracket expressions end.  A pattern is scanned by the rules of POSIX, and what comes out of it
is read in the dialect that compiles it.  That dialect knows sets within sets, set operations, and
ranges that end in any character, so it may look for the end of an expression elsewhere.  It finds
the same end when the name of no class holds a bracket or a backslash and no class stands where it
expects the end of a range.
-/

namespace LogForwarding.Pattern

/-- Whether what stands as the name of a class, known or not, leaves all brackets to others. -/
def isClassName (name : List Char) : Bool :=
  name.all fun c => c ≠ '[' ∧ c ≠ ']' ∧ c ≠ '\\'

def BracketItem.isPlain : BracketItem → Bool
  | .member _ => true
  | .named name _ => isClassName name

/-- Whether no class stands where the dialect expects the end of a range.  Two hyphens are an
operation there, and behind a range a hyphen stands for itself. -/
def noClassEndsRange : List BracketItem → Bool
  | .member '-' :: .member '-' :: rest => noClassEndsRange rest
  | .member _ :: .member '-' :: .named _ _ :: _ => false
  | .member _ :: .member '-' :: .member _ :: rest => noClassEndsRange rest
  | _ :: rest => noClassEndsRange rest
  | [] => true

/-- The items among which ranges are looked for: hyphens that stand first are members. -/
def Bracket.rangeItems (bracket : Bracket) : List BracketItem :=
  if bracket.closeFirst then .member ']' :: bracket.items
  else bracket.items.dropWhile (· = .member '-')

/-- Whether the dialect that compiles patterns finds the end of the expression where POSIX has
it. -/
def Bracket.isPlain (bracket : Bracket) : Bool :=
  bracket.items.all BracketItem.isPlain && noClassEndsRange bracket.rangeItems

/-! ### What scanning leaves -/

/-- An item that is complete: no closing bracket, and no class without an end. -/
def BracketItem.IsWhole : BracketItem → Prop
  | .member c => c ≠ ']'
  | .named _ closed => closed = true

/-- Only the last class of an expression without an end may lack its own. -/
def WholeItems (closed : Bool) : List BracketItem → Prop
  | [] => True
  | item :: rest =>
      (item.IsWhole ∧ WholeItems closed rest) ∨
        (closed = false ∧ rest = [] ∧ ∃ name, item = .named name false)

theorem WholeItems.append {closed : Bool} {items last : List BracketItem}
    (hitems : ∀ item ∈ items, item.IsWhole) (hlast : WholeItems closed last) :
    WholeItems closed (items ++ last) := by
  induction items with
  | nil => exact hlast
  | cons item items ih =>
      have hrest := ih fun other hother => hitems other (List.mem_cons_of_mem item hother)
      exact Or.inl ⟨hitems item List.mem_cons_self, hrest⟩

theorem WholeItems.of_forall {closed : Bool} {items : List BracketItem}
    (hitems : ∀ item ∈ items, item.IsWhole) : WholeItems closed items := by
  rw [← List.append_nil items]
  exact .append hitems trivial

theorem scanItems_whole (seen : List BracketItem) (name : Option (List Char)) (cs : List Char)
    (hseen : ∀ item ∈ seen, item.IsWhole) :
    WholeItems (scanItems seen name cs).2.1 (scanItems seen name cs).1 := by
  have hreverse : ∀ item ∈ seen.reverse, item.IsWhole := by
    simpa only [List.mem_reverse] using hseen
  fun_induction scanItems seen name cs with
  | case1 seen => exact .of_forall hreverse
  | case2 seen rest ih => exact ih hseen hreverse
  | case3 seen rest => exact .of_forall hreverse
  | case4 seen c rest _ hc ih =>
      have hwhole : ∀ item ∈ BracketItem.member c :: seen, item.IsWhole :=
        List.forall_mem_cons.mpr ⟨hc, hseen⟩
      exact ih hwhole (by simpa only [List.mem_reverse] using hwhole)
  | case5 seen name =>
      rw [List.reverse_cons]
      exact .append hreverse (Or.inr ⟨rfl, rfl, name.reverse, rfl⟩)
  | case6 seen name rest ih =>
      have hwhole : ∀ item ∈ BracketItem.named name.reverse true :: seen, item.IsWhole :=
        List.forall_mem_cons.mpr ⟨rfl, hseen⟩
      exact ih hwhole (by simpa only [List.mem_reverse] using hwhole)
  | case7 seen name c rest _ ih => exact ih hseen hreverse

/-- Without a closing bracket everything is part of the expression. -/
theorem scanItems_rest_eq_nil (seen : List BracketItem) (name : Option (List Char)) (cs : List Char)
    (hopen : (scanItems seen name cs).2.1 = false) : (scanItems seen name cs).2.2 = [] := by
  fun_induction scanItems seen name cs <;> simp_all

/-- Scanning loses no character. -/
theorem text_scanItems (seen : List BracketItem) (name : Option (List Char)) (cs : List Char) :
    (scanItems seen name cs).1.flatMap BracketItem.text ++
        ((if (scanItems seen name cs).2.1 then [']'] else []) ++ (scanItems seen name cs).2.2) =
      seen.reverse.flatMap BracketItem.text ++
        ((name.elim [] fun name => '[' :: ':' :: name.reverse) ++ cs) := by
  fun_induction scanItems seen name cs <;> simp_all [BracketItem.text]

theorem takeHead_append (head : Char) (cs : List Char) :
    (if (takeHead head cs).1 then [head] else []) ++ (takeHead head cs).2 = cs := by
  fun_cases takeHead head cs <;> simp_all

theorem head?_takeHead (head : Char) (cs : List Char) (habsent : (takeHead head cs).1 = false) :
    (takeHead head cs).2 = cs ∧ cs.head? ≠ some head := by
  fun_cases takeHead head cs <;> simp_all [takeHead]

/-- What is known of a bracket expression and the text behind it. -/
structure Bracket.Scanned (bracket : Bracket) (rest : List Char) : Prop where
  whole : WholeItems bracket.closed bracket.items
  rest_eq_nil : bracket.closed = false → rest = []
  /-- A closing bracket that stands first is a member. -/
  items_ne_nil : bracket.closeFirst = false → bracket.closed = true → bracket.items ≠ []
  /-- A circumflex that stands first negates. -/
  head_ne : bracket.negated = false → bracket.closeFirst = false →
    bracket.items.head? ≠ some (.member '^')

theorem Bracket.scan_scanned (cs : List Char) : (scan cs).1.Scanned (scan cs).2 := by
  have htext := text_scanItems [] none (takeHead ']' (takeHead '^' cs).2).2
  refine ⟨?_, ?_, ?_, ?_⟩
  · exact scanItems_whole [] none _ (by simp)
  · exact scanItems_rest_eq_nil [] none _
  · intro hfirst hclosed hitems
    obtain ⟨hrest, hhead⟩ := head?_takeHead ']' (takeHead '^' cs).2 hfirst
    simp only [scan] at hclosed hitems
    rw [hclosed, hitems] at htext
    apply hhead
    rw [← hrest]
    simpa using congrArg List.head? htext.symm
  · intro hnegated hfirst hitems
    obtain ⟨hrest, -⟩ := head?_takeHead ']' (takeHead '^' cs).2 hfirst
    obtain ⟨hrest', hhead⟩ := head?_takeHead '^' cs hnegated
    obtain ⟨items, hitems⟩ := List.head?_eq_some_iff.mp hitems
    simp only [scan] at hitems
    rw [hitems, hrest, hrest'] at htext
    apply hhead
    simpa [BracketItem.text] using congrArg List.head? htext.symm

/-! ### Reading a class -/

variable {pending : Option (SetOperation × ClassSet)} {seen : List ClassItem} {fuel : Nat}
  {cs rest tail : List Char} {item : ClassItem} {set : ClassSet} {negated : Bool}

/-- A single item leaves what stands behind the first character or escape, a range what stands
behind the second. -/
theorem readRange_eq_some (hread : readRange cs = some (item, rest)) :
    ∃ first more, readClassPrimitive cs = some (first, more) ∧
      ((rest = more ∧ ∀ c left, more = '-' :: c :: left → c = ']' ∨ c = '-') ∨
        ∃ c left last, more = '-' :: c :: left ∧ c ≠ ']' ∧ c ≠ '-' ∧
          readClassPrimitive (c :: left) = some (last, rest)) := by
  rw [readRange] at hread
  obtain ⟨⟨first, more⟩, hfirst, hread⟩ := Option.bind_eq_some_iff.mp hread
  refine ⟨first, more, hfirst, ?_⟩
  have hsingle : ∀ more : List Char,
      ((itemOfAst first).map fun item => (item, more)) = some (item, rest) → rest = more := by
    intro more hmap
    obtain ⟨_, -, heq⟩ := Option.map_eq_some_iff.mp hmap
    exact (Prod.mk.inj heq).2.symm
  dsimp only at hread
  split at hread
  · cases hread
  · exact Or.inl ⟨hsingle _ hread, by simp⟩
  · exact Or.inl ⟨hsingle _ hread, by simp⟩
  · rename_i more hclose hhyphen
    obtain ⟨⟨last, left⟩, hlast, hrange⟩ := Option.bind_eq_some_iff.mp hread
    obtain rfl : left = rest := by
      dsimp only at hrange
      split at hrange
      · split at hrange
        · exact (Prod.mk.inj (Option.some.inj hrange)).2
        · cases hrange
      · cases hrange
    obtain ⟨c, behind, rfl⟩ : ∃ c behind, more = c :: behind := by
      cases more with
      | nil => cases hlast
      | cons c behind => exact ⟨c, behind, rfl⟩
    refine Or.inr ⟨c, behind, last, rfl, ?_, ?_, hlast⟩
    · rintro rfl
      exact hclose _ rfl
    · rintro rfl
      exact hhyphen _ rfl
  · rename_i hrange
    exact Or.inl ⟨hsingle _ hread, fun c left hmore => absurd hmore (hrange _)⟩

/-- What one step of reading a set leaves of the text, short of the end of the set. -/
inductive SetStep (fuel : Nat) : List Char → List Char → Prop where
  | operation {c : Char} {rest : List Char} (hc : c ∈ ['&', '-', '~']) :
      SetStep fuel (c :: c :: rest) rest
  | named {item : ClassItem} {cs rest : List Char}
      (hread : readNamedClass cs = some (item, rest)) : SetStep fuel ('[' :: cs) rest
  | nested {negated : Bool} {set : ClassSet} {cs rest : List Char}
      (hread : readBracket fuel cs = some (negated, set, rest)) : SetStep fuel ('[' :: cs) rest
  | range {item : ClassItem} {cs rest : List Char} (hopen : cs.head? ≠ some '[')
      (hclose : cs.head? ≠ some ']') (hoperation : ∀ left, cs ≠ '-' :: '-' :: left)
      (hread : readRange cs = some (item, rest)) : SetStep fuel cs rest

/-- A set that can be read ends here, or it can be read on behind a step. -/
theorem readSet_eq_some (hread : readSet pending seen (fuel + 1) cs = some (set, rest)) :
    cs = ']' :: rest ∨ ∃ left pending seen,
      SetStep fuel cs left ∧ readSet pending seen fuel left = some (set, rest) := by
  unfold readSet at hread
  split at hread
  · cases hread
  · cases hread
    exact Or.inl rfl
  · exact Or.inr ⟨_, _, _, .operation (by decide), hread⟩
  · exact Or.inr ⟨_, _, _, .operation (by decide), hread⟩
  · exact Or.inr ⟨_, _, _, .operation (by decide), hread⟩
  · split at hread
    · rename_i item left hnamed
      exact Or.inr ⟨left, _, _, .named hnamed, hread⟩
    · obtain ⟨⟨negated, inner, left⟩, hbracket, hread⟩ := Option.bind_eq_some_iff.mp hread
      exact Or.inr ⟨left, _, _, .nested hbracket, hread⟩
  · rename_i hclose _ hoperation _ hopen
    obtain ⟨⟨item, left⟩, hrange, hread⟩ := Option.bind_eq_some_iff.mp hread
    refine Or.inr ⟨left, _, _, .range ?_ ?_ hoperation hrange, hread⟩
    · intro hhead
      obtain ⟨more, rfl⟩ := List.head?_eq_some_iff.mp hhead
      exact hopen more rfl
    · intro hhead
      obtain ⟨more, rfl⟩ := List.head?_eq_some_iff.mp hhead
      exact hclose more rfl

/-- What every step of reading a set keeps of the text up to the end of an expression, leads to that
end. -/
theorem readSet_of_step (Held : List Char → Prop) (hstep : ∀ fuel text left, Held text →
      SetStep fuel (text ++ tail) left → ∃ kept, Held kept ∧ left = kept ++ tail)
    (hclose : ∀ text, Held text → (text ++ tail).head? = some ']' → text = [])
    {text : List Char} (htext : Held text)
    (hread : readSet pending seen fuel (text ++ tail) = some (set, rest)) : tail = ']' :: rest := by
  induction fuel generalizing pending seen text with
  | zero => simp [readSet] at hread
  | succ fuel ih =>
      rcases readSet_eq_some hread with hend | ⟨left, pending, seen, hset, hleft⟩
      · have htext := hclose text htext (by rw [hend, List.head?_cons])
        rwa [htext] at hend
      · obtain ⟨kept, hkept, rfl⟩ := hstep fuel text left htext hset
        exact ih hkept hleft

/-- What stands at the end of an expression, if anything does, is its closing bracket. -/
def IsEnd (tail : List Char) : Prop :=
  ∀ c ∈ tail.head?, c = ']'

theorem IsEnd.nil : IsEnd [] := by
  simp [IsEnd]

theorem IsEnd.cons (rest : List Char) : IsEnd (']' :: rest) := by
  simp [IsEnd]

theorem IsEnd.head_eq {c : Char} (hend : IsEnd (c :: rest)) : c = ']' :=
  hend c rfl

theorem readClassPrimitive_of_ne {c : Char} (hc : c ≠ '\\') (cs : List Char) :
    readClassPrimitive (c :: cs) = some (.literal c .verbatim, cs) := by
  unfold readClassPrimitive
  split
  · contradiction
  · rename_i heq
    exact absurd (List.cons.inj heq).1 hc
  · rename_i heq
    cases heq
    rfl

/-- At its end a set takes no step. -/
theorem not_setStep_of_isEnd (htail : IsEnd tail) : ¬ SetStep fuel tail rest := by
  intro hstep
  cases hstep with
  | operation hc =>
      rw [htail.head_eq] at hc
      simp at hc
  | named hread => exact absurd htail.head_eq (by decide)
  | nested hread => exact absurd htail.head_eq (by decide)
  | range hopen hclose hoperation hread =>
      cases tail with
      | nil => simp [readRange, readClassPrimitive] at hread
      | cons c cs => exact hclose (by rw [htail.head_eq, List.head?_cons])

/-- A character that is no closing bracket stands before the end of an expression. -/
theorem exists_eq_cons_of_isEnd {text : List Char} {c : Char} (htail : IsEnd tail)
    (htext : text ++ tail = c :: rest) (hc : c ≠ ']') :
    ∃ left, text = c :: left ∧ rest = left ++ tail := by
  cases text with
  | nil =>
      rw [List.nil_append] at htext
      subst htext
      exact absurd htail.head_eq hc
  | cons d left =>
      obtain ⟨rfl, rfl⟩ := List.cons.inj htext
      exact ⟨left, rfl, rfl⟩

theorem isClassName_cons {c : Char} {name : List Char} :
    isClassName (c :: name) ↔ (c ≠ '[' ∧ c ≠ ']' ∧ c ≠ '\\') ∧ isClassName name := by
  simp [isClassName]

theorem isClassName_append {name name' : List Char} :
    isClassName (name ++ name') ↔ isClassName name ∧ isClassName name' := by
  simp [isClassName]

/-- A step within a name leads to a later place in the name. -/
theorem SetStep.exists_name {name : List Char} (hname : isClassName name) (htail : IsEnd tail)
    (hstep : SetStep fuel (name ++ tail) rest) :
    ∃ left, isClassName left ∧ rest = left ++ tail := by
  cases name with
  | nil => exact absurd hstep (not_setStep_of_isEnd htail)
  | cons c name =>
      obtain ⟨⟨hopen, hclose, hescape⟩, hname⟩ := isClassName_cons.mp hname
      rw [List.cons_append] at hstep
      generalize htext : name ++ tail = text at hstep
      cases hstep with
      | operation hc =>
          obtain ⟨left, rfl, rfl⟩ := exists_eq_cons_of_isEnd htail htext hclose
          exact ⟨left, (isClassName_cons.mp hname).2, rfl⟩
      | named hread => exact absurd rfl hopen
      | nested hread => exact absurd rfl hopen
      | range _ _ _ hread =>
          obtain ⟨first, more, hfirst, hrest⟩ := readRange_eq_some hread
          rw [readClassPrimitive_of_ne hescape] at hfirst
          obtain ⟨-, rfl⟩ := Prod.mk.inj (Option.some.inj hfirst)
          rcases hrest with ⟨rfl, -⟩ | ⟨d, behind, last, hmore, hd, -, hlast⟩
          · exact ⟨name, hname, htext.symm⟩
          · obtain ⟨name, rfl, hbehind⟩ :=
              exists_eq_cons_of_isEnd htail (htext.trans hmore) (by decide)
            obtain ⟨left, rfl, rfl⟩ := exists_eq_cons_of_isEnd htail hbehind.symm hd
            obtain ⟨-, hname⟩ := isClassName_cons.mp hname
            obtain ⟨⟨-, -, hescape⟩, hname⟩ := isClassName_cons.mp hname
            rw [readClassPrimitive_of_ne hescape] at hlast
            obtain ⟨-, rfl⟩ := Prod.mk.inj (Option.some.inj hlast)
            exact ⟨left, hname, rfl⟩

/-- The set that a name is read as ends where the class of that name ends. -/
theorem readSet_name {name : List Char} (hname : isClassName name) (htail : IsEnd tail)
    (hread : readSet pending seen fuel (name ++ tail) = some (set, rest)) : tail = ']' :: rest := by
  refine readSet_of_step (isClassName ·) ?_ ?_ hname hread
  · intro fuel text left htext hstep
    exact hstep.exists_name htext htail
  · intro text htext hhead
    cases text with
    | nil => rfl
    | cons c text =>
        obtain ⟨⟨-, hclose, -⟩, -⟩ := isClassName_cons.mp htext
        exact absurd (Option.some.inj hhead) hclose

/-- The first members are the hyphens in front, if no closing bracket stands there. -/
theorem readFirstMembers_eq (hclose : cs.head? ≠ some ']') :
    readFirstMembers cs =
      ((cs.takeWhile (· = '-')).map (.literal · .verbatim), cs.dropWhile (· = '-')) := by
  simp only [readFirstMembers]
  split
  · rename_i rest hhyphens hrest
    have hcs := List.takeWhile_append_dropWhile (p := (· = '-')) (l := cs)
    rw [hhyphens, hrest, List.nil_append] at hcs
    rw [← hcs] at hclose
    exact absurd rfl hclose
  · rfl

/-- A bracket expression begins with its negation and its first members. -/
theorem readBracket_first (inverted : Bool) (hcaret : inverted = false → cs.head? ≠ some '^')
    (hread : readBracket fuel ((if inverted then ['^'] else []) ++ cs) =
      some (negated, set, rest)) :
    negated = inverted ∧ ∃ fuel, readSet none (readFirstMembers cs).1.reverse fuel
      (readFirstMembers cs).2 = some (set, rest) := by
  cases fuel with
  | zero => simp [readBracket] at hread
  | succ fuel =>
      have hopened : ∀ inverted,
          (if (readFirstMembers cs).2 = [] then none
            else (readSet none (readFirstMembers cs).1.reverse fuel (readFirstMembers cs).2).bind
              fun found => some (inverted, found.1, found.2)) = some (negated, set, rest) →
          negated = inverted ∧ ∃ fuel, readSet none (readFirstMembers cs).1.reverse fuel
            (readFirstMembers cs).2 = some (set, rest) := by
        intro inverted hread
        split at hread
        · cases hread
        · obtain ⟨⟨_, _⟩, hset, hleft⟩ := Option.bind_eq_some_iff.mp hread
          cases hleft
          exact ⟨rfl, fuel, hset⟩
      unfold readBracket at hread
      cases inverted with
      | true => exact hopened true hread
      | false =>
          rw [if_neg Bool.false_ne_true, List.nil_append] at hread
          split at hread
          · rename_i heq
            split at heq
            · exact absurd rfl (hcaret rfl)
            · cases heq
              exact hopened false hread

/-- Behind its negation and its first members a bracket expression goes on as a set. -/
theorem readBracket_eq_some (inverted : Bool) (hcaret : inverted = false → cs.head? ≠ some '^')
    (hclose : cs.head? ≠ some ']')
    (hread : readBracket fuel ((if inverted then ['^'] else []) ++ cs) =
      some (negated, set, rest)) :
    ∃ fuel seen, readSet none seen fuel (cs.dropWhile (· = '-')) = some (set, rest) := by
  obtain ⟨-, fuel, hset⟩ := readBracket_first inverted hcaret hread
  rw [readFirstMembers_eq hclose] at hset
  exact ⟨fuel, _, hset⟩

theorem bracket_notMem_of_mem_classNames {name : String} (hname : name ∈ classNames) :
    ']' ∉ name.toList := by
  revert name
  decide

/-- A class that is known ends at the first closing bracket. -/
theorem readNamedClass_eq_some (hread : readNamedClass cs = some (item, rest)) :
    ∃ body, cs = body ++ ']' :: rest ∧ ']' ∉ body := by
  have hknown : ∀ more : List Char,
      more.dropWhile (· ≠ ':') = ':' :: ']' :: rest →
      String.ofList (more.takeWhile (· ≠ ':')) ∈ classNames →
      ∃ body, more = body ++ ']' :: rest ∧ ']' ∉ body := by
    intro more hdrop hname
    have hbracket := bracket_notMem_of_mem_classNames hname
    rw [String.toList_ofList] at hbracket
    refine ⟨more.takeWhile (· ≠ ':') ++ [':'], ?_, by simpa using hbracket⟩
    have hmore := List.takeWhile_append_dropWhile (p := (· ≠ ':')) (l := more)
    rw [hdrop] at hmore
    simpa using hmore.symm
  unfold readNamedClass at hread
  split at hread
  · rename_i left
    split at hread
    rename_i more hmore
    split at hread
    · rename_i left hdrop
      dsimp only at hread
      split at hread
      · rename_i hname
        cases hread
        obtain ⟨body, rfl, hbody⟩ := hknown more hdrop hname
        split at hmore
        · cases hmore
          exact ⟨':' :: '^' :: body, rfl, by simpa using hbody⟩
        · cases hmore
          exact ⟨':' :: body, rfl, by simpa using hbody⟩
      · cases hread
    · cases hread
  · cases hread

/-- Only one closing bracket is the first. -/
theorem eq_cons_of_append_eq {body body' : List Char} (htail : IsEnd tail) (hbody : ']' ∉ body)
    (hbody' : ']' ∉ body') (heq : body ++ tail = body' ++ ']' :: rest) : tail = ']' :: rest := by
  induction body generalizing body' with
  | nil =>
      cases body' with
      | nil => exact heq
      | cons c body' =>
          rw [List.nil_append] at heq
          subst heq
          rw [htail.head_eq] at hbody'
          exact absurd List.mem_cons_self hbody'
  | cons c body ih =>
      cases body' with
      | nil =>
          rw [(List.cons.inj heq).1] at hbody
          exact absurd List.mem_cons_self hbody
      | cons d body' =>
          exact ih (fun hmem => hbody (List.mem_cons_of_mem c hmem))
            (fun hmem => hbody' (List.mem_cons_of_mem d hmem)) (List.cons.inj heq).2

theorem bracket_notMem_of_isClassName {name : List Char} (hname : isClassName name) :
    ']' ∉ name := by
  simp only [isClassName, List.all_eq_true, decide_eq_true_eq] at hname
  exact fun hmem => (hname _ hmem).2.1 rfl

/-- A class, known or not, is read up to the bracket that ends it. -/
theorem SetStep.class_rest {name : List Char} (hname : isClassName name) (htail : IsEnd tail)
    (hstep : SetStep fuel ('[' :: ':' :: (name ++ tail)) rest) : tail = ']' :: rest := by
  have hname : isClassName (':' :: name) := isClassName_cons.mpr ⟨by decide, hname⟩
  cases hstep with
  | named hread =>
      obtain ⟨body, heq, hbody⟩ := readNamedClass_eq_some hread
      exact eq_cons_of_append_eq htail (bracket_notMem_of_isClassName hname) hbody heq
  | nested hread =>
      obtain ⟨fuel, seen, hset⟩ :=
        readBracket_eq_some false (fun _ => by simp) (by simp) hread
      exact readSet_name hname htail hset
  | range hopen => exact absurd rfl hopen

/-! ### Reading items -/

theorem noClassEndsRange_member {c d : Char} (hc : c ≠ '-') (rest : List BracketItem) :
    noClassEndsRange (.member c :: .member '-' :: .member d :: rest) = noClassEndsRange rest := by
  simp [noClassEndsRange]

theorem noClassEndsRange_class {c : Char} (hc : c ≠ '-') (name : List Char) (closed : Bool)
    (rest : List BracketItem) :
    noClassEndsRange (.member c :: .member '-' :: .named name closed :: rest) = false := by
  simp [noClassEndsRange]

theorem noClassEndsRange_named (name : List Char) (closed : Bool) (rest : List BracketItem) :
    noClassEndsRange (.named name closed :: rest) = noClassEndsRange rest := by
  simp [noClassEndsRange]

theorem noClassEndsRange_cons {c : Char} {rest : List BracketItem}
    (hoperation : c = '-' → ∀ more, rest ≠ .member '-' :: more)
    (hhyphen : ∀ next more, rest ≠ .member '-' :: next :: more) :
    noClassEndsRange (.member c :: rest) = noClassEndsRange rest := by
  rw [noClassEndsRange]
  · intro more hc
    exact hoperation (BracketItem.member.inj hc) more
  · intro d name closed more _
    exact hhyphen _ more
  · intro d e more _
    exact hhyphen _ more

/-- The text of items in the escaped pattern. -/
abbrev escapedItems (items : List BracketItem) : List Char :=
  items.flatMap BracketItem.escapedText

theorem WholeItems.of_cons {closed : Bool} {item : BracketItem} {items : List BracketItem}
    (hwhole : WholeItems closed (item :: items)) : WholeItems closed items := by
  rcases hwhole with ⟨-, hitems⟩ | ⟨-, rfl, -⟩
  · exact hitems
  · trivial

/-- Items at whose end the dialect gets when it begins to read one of them. -/
structure PlainItems (closed : Bool) (items : List BracketItem) : Prop where
  whole : WholeItems closed items
  plain : ∀ item ∈ items, item.isPlain
  clear : noClassEndsRange items

theorem PlainItems.of_cons {closed : Bool} {item : BracketItem} {items : List BracketItem}
    (hitems : PlainItems closed (item :: items)) (hclear : noClassEndsRange items) :
    PlainItems closed items :=
  ⟨hitems.whole.of_cons, fun other hother => hitems.plain other (List.mem_cons_of_mem item hother),
    hclear⟩

theorem not_needsEscape_hyphen : needsEscape '-' = false := by decide

/-- A member begins with itself where it is not escaped. -/
theorem escapedText_member_eq_cons {c d : Char} {more : List Char}
    (htext : (BracketItem.member c).escapedText ++ more = d :: rest) :
    d = '\\' ∨ (d = c ∧ ¬ needsEscape c ∧ rest = more) := by
  by_cases hescape : needsEscape c
  · simp only [BracketItem.escapedText, hescape, if_true, List.cons_append] at htext
    exact Or.inl (List.cons.inj htext).1.symm
  · simp only [BracketItem.escapedText, hescape] at htext
    obtain ⟨rfl, hmore⟩ := List.cons.inj htext
    exact Or.inr ⟨rfl, hescape, hmore.symm⟩

/-- A character that is neither a bracket nor a backslash is a member. -/
theorem exists_member_of_head {items : List BracketItem} {c : Char} (htail : IsEnd tail)
    (hc : c ∉ ['[', ']', '\\']) (htext : escapedItems items ++ tail = c :: rest) :
    ∃ left, items = .member c :: left ∧ rest = escapedItems left ++ tail := by
  simp only [List.mem_cons, List.not_mem_nil, or_false, not_or] at hc
  obtain ⟨hopen, hclose, hescape⟩ := hc
  cases items with
  | nil =>
      rw [escapedItems, List.flatMap_nil, List.nil_append] at htext
      subst htext
      exact absurd htail.head_eq hclose
  | cons item left =>
      rw [escapedItems, List.flatMap_cons, List.append_assoc] at htext
      cases item with
      | named name closed => exact absurd (List.cons.inj htext).1.symm hopen
      | member d =>
          rcases escapedText_member_eq_cons htext with hc | ⟨rfl, -, hrest⟩
          · exact absurd hc hescape
          · exact ⟨left, rfl, hrest⟩

theorem isMeta_of_needsEscape {c : Char} (hescape : needsEscape c) : isMeta c := by
  simp only [needsEscape, decide_eq_true_eq] at hescape
  rcases hescape with rfl | rfl | rfl | rfl <;> decide

/-- A member is read as itself. -/
theorem readClassPrimitive_member (c : Char) (cs : List Char) : ∃ form,
    readClassPrimitive ((BracketItem.member c).escapedText ++ cs) = some (.literal c form, cs) := by
  by_cases hescape : needsEscape c
  · refine ⟨.escaped, ?_⟩
    simp [BracketItem.escapedText, hescape, readClassPrimitive, readEscape,
      isMeta_of_needsEscape hescape]
  · refine ⟨.verbatim, ?_⟩
    have hc : c ≠ '\\' := by
      rintro rfl
      exact hescape (by decide)
    simp [BracketItem.escapedText, hescape, readClassPrimitive_of_ne hc]

/-- What stands for itself before a hyphen is no bound of a range. -/
theorem noClassEndsRange_of_single {closed : Bool} {items : List BracketItem} {c : Char}
    (hwhole : WholeItems closed items) (hclear : noClassEndsRange (.member c :: items))
    (hoperation : c = '-' → ∀ more, items ≠ .member '-' :: more)
    (hsingle : ∀ d left, escapedItems items ++ tail = '-' :: d :: left → d = ']' ∨ d = '-') :
    noClassEndsRange items := by
  by_cases hhyphen : ∃ next more, items = .member '-' :: next :: more
  · obtain ⟨next, more, rfl⟩ := hhyphen
    have hc : c ≠ '-' := fun hc => hoperation hc _ rfl
    cases next with
    | named name closed =>
        rw [noClassEndsRange_class hc] at hclear
        cases hclear
    | member d =>
        rw [noClassEndsRange_member hc] at hclear
        by_cases hescape : needsEscape d
        · have hhead := hsingle '\\' (d :: (escapedItems more ++ tail))
            (by simp [BracketItem.escapedText, hescape, not_needsEscape_hyphen])
          simp at hhead
        · have hhead := hsingle d (escapedItems more ++ tail)
            (by simp [BracketItem.escapedText, hescape, not_needsEscape_hyphen])
          rcases hhead with rfl | rfl
          · rcases hwhole.of_cons with ⟨hne, -⟩ | ⟨-, -, name, hname⟩
            · exact absurd rfl hne
            · cases hname
          · exact hclear
  · rwa [noClassEndsRange_cons hoperation fun next more hitems => hhyphen ⟨next, more, hitems⟩]
      at hclear

/-- A single item or a range that begins with a member leads to a later item. -/
theorem readRange_items {closed : Bool} {items : List BracketItem} {c : Char} {first : Ast}
    (htail : IsEnd tail) (hwhole : WholeItems closed items)
    (hplain : ∀ item ∈ items, item.isPlain) (hclear : noClassEndsRange (.member c :: items))
    (hfirst : readClassPrimitive cs = some (first, escapedItems items ++ tail))
    (hoperation : c = '-' → ∀ more, items ≠ .member '-' :: more)
    (hread : readRange cs = some (item, rest)) :
    ∃ left, PlainItems closed left ∧ rest = escapedItems left ++ tail := by
  obtain ⟨first', more, hfirst', hrest⟩ := readRange_eq_some hread
  rw [hfirst] at hfirst'
  obtain ⟨rfl, rfl⟩ := Prod.mk.inj (Option.some.inj hfirst')
  rcases hrest with ⟨rfl, hsingle⟩ | ⟨d, behind, last, hmore, hd, -, hlast⟩
  · exact ⟨items, ⟨hwhole, hplain, noClassEndsRange_of_single hwhole hclear hoperation hsingle⟩, rfl⟩
  · obtain ⟨left, rfl, hbehind⟩ := exists_member_of_head htail (by decide) hmore
    have hc : c ≠ '-' := fun hc => hoperation hc left rfl
    cases left with
    | nil =>
        rw [escapedItems, List.flatMap_nil, List.nil_append] at hbehind
        subst hbehind
        exact absurd htail.head_eq hd
    | cons next left =>
        cases next with
        | named name closed =>
            rw [noClassEndsRange_class hc] at hclear
            cases hclear
        | member e =>
            rw [noClassEndsRange_member hc] at hclear
            obtain ⟨form, hnext⟩ := readClassPrimitive_member e (escapedItems left ++ tail)
            rw [hbehind, escapedItems, List.flatMap_cons, List.append_assoc, hnext] at hlast
            obtain ⟨-, rfl⟩ := Prod.mk.inj (Option.some.inj hlast)
            refine ⟨left, ⟨hwhole.of_cons.of_cons, ?_, hclear⟩, rfl⟩
            intro other hother
            exact hplain other (by simp [hother])

/-- Items do not begin with a closing bracket. -/
theorem head?_escapedItems_ne {closed : Bool} {items : List BracketItem}
    (hwhole : WholeItems closed items) (hitems : items ≠ []) (tail : List Char) :
    (escapedItems items ++ tail).head? ≠ some ']' := by
  intro hhead
  obtain ⟨more, htext⟩ := List.head?_eq_some_iff.mp hhead
  cases items with
  | nil => exact hitems rfl
  | cons item items =>
      rw [escapedItems, List.flatMap_cons, List.append_assoc] at htext
      cases item with
      | named name ended => exact absurd (List.cons.inj htext).1 (by decide)
      | member c =>
          rcases escapedText_member_eq_cons htext with hc | ⟨rfl, -, -⟩
          · exact absurd hc (by decide)
          · rcases hwhole with ⟨hc, -⟩ | ⟨-, -, name, hname⟩
            · exact hc rfl
            · cases hname

/-- A class is one item, and it is left behind. -/
theorem SetStep.exists_of_named {closed ended : Bool} {name : List Char}
    {items : List BracketItem} (hopen : closed = false → tail = [])
    (hitems : PlainItems closed (.named name ended :: items))
    (hstep : SetStep fuel
      ((BracketItem.named name ended).escapedText ++ (escapedItems items ++ tail)) rest) :
    ∃ left, PlainItems closed left ∧ rest = escapedItems left ++ tail := by
  have hname : isClassName name := hitems.plain _ List.mem_cons_self
  cases ended with
  | true =>
      have hname : isClassName (name ++ [':']) :=
        isClassName_append.mpr ⟨hname, by decide⟩
      have hrest := SetStep.class_rest hname (.cons (escapedItems items ++ tail))
        (by simpa [BracketItem.escapedText, BracketItem.text] using hstep)
      have hclear := hitems.clear
      rw [noClassEndsRange_named] at hclear
      exact ⟨items, hitems.of_cons hclear, (List.cons.inj hrest).2.symm⟩
  | false =>
      rcases hitems.whole with ⟨hended, -⟩ | ⟨hclosed, rfl, -⟩
      · cases hended
      · have hrest := SetStep.class_rest hname .nil
          (by simpa [BracketItem.escapedText, BracketItem.text, hopen hclosed] using hstep)
        cases hrest

/-- A member is an item by itself, the first bound of a range, or the first half of an operation. -/
theorem SetStep.exists_of_member {closed : Bool} {c : Char} {items : List BracketItem}
    (htail : IsEnd tail) (hitems : PlainItems closed (.member c :: items))
    (hstep : SetStep fuel
      ((BracketItem.member c).escapedText ++ (escapedItems items ++ tail)) rest) :
    ∃ left, PlainItems closed left ∧ rest = escapedItems left ++ tail := by
  generalize htext : (BracketItem.member c).escapedText ++ (escapedItems items ++ tail) = text
    at hstep
  -- A member that is written without an escape is none of the characters that open something.
  cases hstep with
  | @operation d _ hc =>
      rcases escapedText_member_eq_cons htext with rfl | ⟨rfl, hescape, hmore⟩
      · simp at hc
      · obtain rfl : d = '-' := by
          simp only [List.mem_cons, List.not_mem_nil, or_false] at hc
          rcases hc with rfl | rfl | rfl
          · exact absurd (by decide) hescape
          · rfl
          · exact absurd (by decide) hescape
        obtain ⟨left, rfl, rfl⟩ := exists_member_of_head htail (by decide) hmore.symm
        have hclear := hitems.clear
        rw [noClassEndsRange] at hclear
        refine ⟨left, ⟨hitems.whole.of_cons.of_cons, ?_, hclear⟩, rfl⟩
        intro other hother
        exact hitems.plain other (by simp [hother])
  | named hread =>
      rcases escapedText_member_eq_cons htext with hc | ⟨rfl, hescape, -⟩
      · exact absurd hc (by decide)
      · exact absurd (by decide) hescape
  | nested hread =>
      rcases escapedText_member_eq_cons htext with hc | ⟨rfl, hescape, -⟩
      · exact absurd hc (by decide)
      · exact absurd (by decide) hescape
  | range _ _ hoperation hread =>
      obtain ⟨form, hfirst⟩ := readClassPrimitive_member c (escapedItems items ++ tail)
      rw [htext] at hfirst
      refine readRange_items htail hitems.whole.of_cons
        (fun other hother => hitems.plain other (List.mem_cons_of_mem _ hother))
        hitems.clear hfirst ?_ hread
      rintro rfl more rfl
      exact hoperation _ htext.symm

/-- A step at an item leads to a later item. -/
theorem SetStep.exists_items {closed : Bool} {items : List BracketItem} (htail : IsEnd tail)
    (hopen : closed = false → tail = []) (hitems : PlainItems closed items)
    (hstep : SetStep fuel (escapedItems items ++ tail) rest) :
    ∃ left, PlainItems closed left ∧ rest = escapedItems left ++ tail := by
  cases items with
  | nil => exact absurd hstep (not_setStep_of_isEnd htail)
  | cons item items =>
      rw [escapedItems, List.flatMap_cons, List.append_assoc] at hstep
      cases item with
      | named name ended => exact hstep.exists_of_named hopen hitems
      | member c => exact hstep.exists_of_member htail hitems

/-- The items are read up to the end of their expression. -/
theorem readSet_items {closed : Bool} {items : List BracketItem} (htail : IsEnd tail)
    (hopen : closed = false → tail = []) (hitems : PlainItems closed items)
    (hread : readSet pending seen fuel (escapedItems items ++ tail) = some (set, rest)) :
    tail = ']' :: rest := by
  refine readSet_of_step (fun text => ∃ items, PlainItems closed items ∧ text = escapedItems items)
    ?_ ?_ ⟨items, hitems, rfl⟩ hread
  · rintro fuel _ left ⟨items, hitems, rfl⟩ hstep
    obtain ⟨kept, hkept, hleft⟩ := hstep.exists_items htail hopen hitems
    exact ⟨_, ⟨kept, hkept, rfl⟩, hleft⟩
  · rintro _ ⟨items, hitems, rfl⟩ hhead
    cases items with
    | nil => rfl
    | cons item items => exact absurd hhead (head?_escapedItems_ne hitems.whole (by simp) tail)

/-- The same behind a closing bracket that stands first. -/
theorem readSet_closeFirst {closed : Bool} {items : List BracketItem} (htail : IsEnd tail)
    (hopen : closed = false → tail = []) (hwhole : WholeItems closed items)
    (hplain : ∀ item ∈ items, item.isPlain) (hclear : noClassEndsRange (.member ']' :: items))
    (hread : readSet pending seen fuel ('\\' :: ']' :: (escapedItems items ++ tail)) =
      some (set, rest)) : tail = ']' :: rest := by
  cases fuel with
  | zero => simp [readSet] at hread
  | succ fuel =>
      rcases readSet_eq_some hread with hend | ⟨left, pending, seen, hset, hleft⟩
      · simp at hend
      · cases hset with
        | range _ _ _ hrange =>
            have hfirst : readClassPrimitive ('\\' :: ']' :: (escapedItems items ++ tail)) =
                some (.literal ']' .escaped, escapedItems items ++ tail) := rfl
            obtain ⟨kept, hkept, rfl⟩ :=
              readRange_items htail hwhole hplain hclear hfirst (by simp) hrange
            exact readSet_items htail hopen hkept hleft

theorem dropWhile_escapedItems (htail : IsEnd tail) (items : List BracketItem) :
    (escapedItems items ++ tail).dropWhile (· = '-') =
      escapedItems (items.dropWhile (· = .member '-')) ++ tail := by
  induction items with
  | nil =>
      cases tail with
      | nil => rfl
      | cons c tail =>
          rw [htail.head_eq]
          rfl
  | cons item items ih =>
      by_cases hitem : item = .member '-'
      · subst hitem
        simpa [BracketItem.escapedText, not_needsEscape_hyphen] using ih
      · have hkept : (item :: items).dropWhile (· = .member '-') = item :: items := by
          simp [hitem]
        rw [hkept]
        generalize htext : escapedItems (item :: items) ++ tail = text
        cases text with
        | nil => rfl
        | cons c text =>
            have hc : c ≠ '-' := by
              rintro rfl
              obtain ⟨left, hleft, -⟩ := exists_member_of_head htail (by decide) htext
              exact hitem (List.cons.inj hleft).1
            rw [List.dropWhile_cons_of_neg (by simpa using hc)]

theorem WholeItems.dropWhile {closed : Bool} {items : List BracketItem}
    (hwhole : WholeItems closed items) (p : BracketItem → Bool) :
    WholeItems closed (items.dropWhile p) := by
  induction items with
  | nil => exact hwhole
  | cons item items ih =>
      rw [List.dropWhile_cons]
      split
      · exact ih hwhole.of_cons
      · exact hwhole

/-- Items before which no closing bracket stands are read up to the end of their expression, once the
hyphens in front of them are left behind. -/
theorem readBracket_items {inverted closed : Bool} {items : List BracketItem} (htail : IsEnd tail)
    (hopen : closed = false → tail = []) (hwhole : WholeItems closed items)
    (hdropped : PlainItems closed (items.dropWhile (· = .member '-')))
    (hfirst : closed = true → items ≠ [])
    (hhead : inverted = false → items.head? ≠ some (.member '^'))
    (hread : readBracket fuel ((if inverted then ['^'] else []) ++ (escapedItems items ++ tail)) =
      some (negated, set, rest)) : tail = ']' :: rest := by
  have hcaret : inverted = false → (escapedItems items ++ tail).head? ≠ some '^' := by
    intro hinverted hcaret
    obtain ⟨left, htext⟩ := List.head?_eq_some_iff.mp hcaret
    obtain ⟨left, rfl, -⟩ := exists_member_of_head htail (by decide) htext
    exact hhead hinverted rfl
  have hclose : (escapedItems items ++ tail).head? ≠ some ']' := by
    by_cases hnone : items = []
    · cases closed with
      | true => exact absurd hnone (hfirst rfl)
      | false => simp [hnone, hopen rfl]
    · exact head?_escapedItems_ne hwhole hnone tail
  obtain ⟨fuel, seen, hset⟩ := readBracket_eq_some inverted hcaret hclose hread
  rw [dropWhile_escapedItems htail] at hset
  exact readSet_items htail hopen hdropped hset

/-- A plain expression that can be read is read up to the closing bracket behind its items. -/
theorem Bracket.Scanned.readBracket_tail {bracket : Bracket} {behind more : List Char}
    (hscanned : bracket.Scanned behind) (hplain : bracket.isPlain)
    (hmore : behind = [] → more = [])
    (hread : readBracket fuel (bracket.escapedText.tail ++ more) = some (negated, set, rest)) :
    (if bracket.closed then [']'] else []) ++ more = ']' :: rest := by
  obtain ⟨inverted, closeFirst, items, closed⟩ := bracket
  obtain ⟨hwhole, hrest, hfirst, hhead⟩ := hscanned
  rw [Bracket.isPlain, Bool.and_eq_true, List.all_eq_true] at hplain
  obtain ⟨hplain, hclear⟩ := hplain
  dsimp only at hwhole hrest hfirst hhead hplain
  obtain ⟨tail, htail⟩ : ∃ tail, (if closed then [']'] else []) ++ more = tail := ⟨_, rfl⟩
  have hopen : closed = false → tail = [] := by
    rintro rfl
    rw [← htail, hmore (hrest rfl)]
    rfl
  have hend : IsEnd tail := by
    cases closed with
    | true => exact htail ▸ .cons more
    | false => exact hopen rfl ▸ .nil
  change (if closed then [']'] else []) ++ more = ']' :: rest
  rw [htail]
  cases closeFirst with
  | true =>
      have hread : readBracket fuel ((if inverted then ['^'] else []) ++
          ('\\' :: ']' :: (escapedItems items ++ tail))) = some (negated, set, rest) := by
        rw [← hread, ← htail]
        simp [Bracket.escapedText]
      obtain ⟨fuel, seen, hset⟩ := readBracket_eq_some inverted (by simp) (by simp) hread
      exact readSet_closeFirst hend hopen hwhole hplain hclear hset
  | false =>
      have hread : readBracket fuel ((if inverted then ['^'] else []) ++
          (escapedItems items ++ tail)) = some (negated, set, rest) := by
        rw [← hread, ← htail]
        simp [Bracket.escapedText]
      have hdropped : PlainItems closed (items.dropWhile (· = .member '-')) :=
        ⟨hwhole.dropWhile _,
          fun item hitem => hplain item ((List.dropWhile_sublist _).subset hitem), hclear⟩
      exact readBracket_items hend hopen hwhole hdropped (hfirst rfl)
        (fun hinverted => hhead hinverted rfl) hread

/-- An expression that can be read has a closing bracket. -/
theorem Bracket.Scanned.closed_of_readBracket {bracket : Bracket} {behind more : List Char}
    (hscanned : bracket.Scanned behind) (hplain : bracket.isPlain)
    (hmore : behind = [] → more = [])
    (hread : readBracket fuel (bracket.escapedText.tail ++ more) = some (negated, set, rest)) :
    bracket.closed := by
  have htail := hscanned.readBracket_tail hplain hmore hread
  cases hclosed : bracket.closed with
  | true => rfl
  | false =>
      rw [hclosed, hmore (hscanned.rest_eq_nil hclosed)] at htail
      cases htail

/-- The dialect that compiles patterns finds the end of a plain expression where the scan has found
it. -/
theorem Bracket.Scanned.readBracket_rest {bracket : Bracket} {behind more : List Char}
    (hscanned : bracket.Scanned behind) (hplain : bracket.isPlain)
    (hmore : behind = [] → more = [])
    (hread : readBracket fuel (bracket.escapedText.tail ++ more) = some (negated, set, rest)) :
    rest = more := by
  have htail := hscanned.readBracket_tail hplain hmore hread
  rw [hscanned.closed_of_readBracket hplain hmore hread] at htail
  exact (List.cons.inj htail).2.symm

end LogForwarding.Pattern
