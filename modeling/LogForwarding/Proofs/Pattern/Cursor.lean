import LogForwarding.Proofs.Pattern.Bracket

/-!
Bracket expressions read by place.  The text stays whole, and a place in it moves on with every turn
of a loop.  One loop looks for the end of a bracket expression in the whole pattern, another one
escapes the members and sees nothing but the expression.  Both end, neither reads at a place where
nothing stands, and they come to the same items, those of scanning: where a class ends, or that it
does not end, is the same in the pattern and in the expression.
-/

namespace LogForwarding

namespace Pattern

/-! ### Loops -/

section Loop

variable {σ ρ : Type} {turn : σ → Option (σ ⊕ ρ)} {turns bound : Nat} {state later : σ}
  {result : ρ}

/-- Runs a loop for so many turns at most: the states that it comes to, and what it ends with.  Each
turn leads to the next state or to the end.  Nothing comes of a loop in which a turn fails, nor of
one that has not come to its end by then. -/
def runLoop (turn : σ → Option (σ ⊕ ρ)) : (turns : Nat) → (state : σ) → Option (List σ × ρ)
  | 0, _ => none
  | turns + 1, state => do
      match ← turn state with
      | .inl next =>
          let (states, result) ← runLoop turn turns next
          return (state :: states, result)
      | .inr result => return ([state], result)

theorem runLoop_next {states : List σ} (hturn : turn state = some (.inl later))
    (hrun : runLoop turn turns later = some (states, result)) :
    runLoop turn (turns + 1) state = some (state :: states, result) := by
  rw [runLoop, hturn]
  simp [hrun]

theorem runLoop_done (hturn : turn state = some (.inr result)) (hturns : bound < turns) :
    runLoop turn turns state = some ([state], result) := by
  obtain ⟨turns, rfl⟩ := Nat.exists_eq_add_one_of_ne_zero (Nat.ne_zero_of_lt hturns)
  rw [runLoop, hturn]
  rfl

/-- A loop comes to its end whenever it may take more turns than the bound. -/
def Ends (turn : σ → Option (σ ⊕ ρ)) (bound : Nat) (state : σ) (result : ρ) : Prop :=
  ∀ turns, bound < turns → ∃ states, runLoop turn turns state = some (states, result)

theorem Ends.done (hturn : turn state = some (.inr result)) : Ends turn bound state result :=
  fun _ hturns => ⟨_, runLoop_done hturn hturns⟩

theorem Ends.next {less : Nat} (hless : less < bound) (hturn : turn state = some (.inl later))
    (hends : Ends turn less later result) : Ends turn bound state result := by
  intro turns hturns
  obtain ⟨turns, rfl⟩ := Nat.exists_eq_add_one_of_ne_zero (Nat.ne_zero_of_lt hturns)
  obtain ⟨states, hrun⟩ := hends turns (by omega)
  exact ⟨_, runLoop_next hturn hrun⟩

theorem Ends.bind_eq {α : Type} {rest : List σ × ρ → Option α} {value : α}
    (hends : Ends turn bound state result) (hturns : bound < turns)
    (hrest : ∀ states, rest (states, result) = some value) :
    (runLoop turn turns state >>= rest) = some value := by
  obtain ⟨states, hrun⟩ := hends turns hturns
  rw [hrun]
  exact hrest states

end Loop

/-! ### The loops that read a bracket expression -/

/-- The text from one place up to another, which must be places of a text in this order. -/
def slice? (cs : List Char) (first last : Nat) : Option (List Char) :=
  if first ≤ last ∧ last ≤ cs.length then some ((cs.take last).drop first) else none

/-- Where a closing bracket stands behind a colon for the first time. -/
def colonBracket? (cs : List Char) : Option Nat :=
  (cs.zip cs.tail).findIdx? fun pair => pair = (':', ']')

/-- The place behind a class, or the end of the text. -/
def classEnd? (cs : List Char) (start : Nat) : Option Nat := do
  let rest ← slice? cs (start + 2) cs.length
  return (colonBracket? rest).elim cs.length fun place => start + 2 + place + 2

/-- One turn of looking for the end of a bracket expression. -/
def skipTurn (cs : List Char) (i : Nat) : Option (Nat ⊕ Nat) :=
  if i < cs.length then do
    let c ← cs[i]?
    if c = '[' ∧ cs[i + 1]? = some ':' then return .inl (← classEnd? cs i)
    else if c = ']' then return .inr (i + 1)
    else return .inl (i + 1)
  else return .inr cs.length

/-- The place behind a character, if this character stands at a place. -/
def passHead (cs : List Char) (head : Char) (i : Nat) : Nat :=
  if cs[i]? = some head then i + 1 else i

/-- The place behind a bracket expression. -/
def bracketEnd? (cs : List Char) (start : Nat) : Option Nat := do
  let front := passHead cs ']' (passHead cs '^' (start + 1))
  let (_, place) ← runLoop (skipTurn cs) (cs.length + 1) front
  return place

/-- One turn of escaping the members of a bracket expression. -/
def memberTurn (bracket : List Char) :
    Nat × List Char → Option ((Nat × List Char) ⊕ List Char)
  | (i, out) =>
      if i < bracket.length then do
        let c ← bracket[i]?
        if c = '[' ∧ bracket[i + 1]? = some ':' then
          let close ← classEnd? bracket i
          return .inl (close, out ++ (← slice? bracket i close))
        else if needsEscape c then return .inl (i + 1, out ++ ['\\', c])
        else return .inl (i + 1, out ++ [c])
      else return .inr out

/-- Writes a text for a character, if this character stands at a place. -/
def writeHead (cs : List Char) (head : Char) (text : List Char) :
    Nat × List Char → Nat × List Char
  | (i, out) => if cs[i]? = some head then (i + 1, out ++ text) else (i, out)

/-- Escapes a bracket expression, behind what was written before it. -/
def escapeBracket? (bracket out : List Char) : Option (List Char) := do
  let front := writeHead bracket '^' ['^'] (1, out ++ ['['])
  let front := writeHead bracket ']' ['\\', ']'] front
  let (_, out) ← runLoop (memberTurn bracket) (bracket.length + 1) front
  return out

/-! ### What stands at a place -/

variable {before cs text rest : List Char} {c : Char}

/-- At the place where a text begins stands its first character. -/
theorem getElem?_place (before cs : List Char) : (before ++ cs)[before.length]? = cs.head? := by
  rw [List.getElem?_append_right (Nat.le_refl _), Nat.sub_self, List.head?_eq_getElem?]

theorem getElem?_next (before : List Char) (c : Char) (rest : List Char) :
    (before ++ c :: rest)[before.length + 1]? = rest.head? := by
  rw [List.append_cons, ← getElem?_place (before ++ [c]) rest, List.length_append]
  rfl

theorem place_lt (before : List Char) (hne : cs ≠ []) : before.length < (before ++ cs).length := by
  rw [List.length_append]
  exact Nat.lt_add_of_pos_right (List.length_pos_iff.mpr hne)

theorem slice?_append (before text rest : List Char) :
    slice? (before ++ (text ++ rest)) before.length (before ++ text).length = some text := by
  rw [slice?, ← List.append_assoc, List.take_left, List.drop_left, if_pos]
  simp

/-! ### Where a class ends -/

theorem colonBracket?_cons (c : Char) (rest : List Char) :
    colonBracket? (c :: rest) =
      if c = ':' ∧ rest.head? = some ']' then some 0 else (colonBracket? rest).map (· + 1) := by
  cases rest with
  | nil => simp [colonBracket?]
  | cons d rest => simp [colonBracket?, List.findIdx?_cons]

/-- What stands behind the end of a class does not matter. -/
theorem colonBracket?_append (name rest : List Char) :
    colonBracket? (name ++ ':' :: ']' :: rest) = colonBracket? (name ++ [':', ']']) := by
  induction name with
  | nil => simp [colonBracket?_cons]
  | cons c name ih =>
      have hhead : (name ++ ':' :: ']' :: rest).head? = (name ++ [':', ']']).head? := by
        cases name <;> rfl
      rw [List.cons_append, List.cons_append, colonBracket?_cons, colonBracket?_cons, ih, hhead]

theorem exists_eq_append_of_colonBracket? {place : Nat} (hplace : colonBracket? cs = some place) :
    ∃ name rest, cs = name ++ ':' :: ']' :: rest ∧ place = name.length := by
  induction cs generalizing place with
  | nil => simp [colonBracket?] at hplace
  | cons c cs ih =>
      rw [colonBracket?_cons] at hplace
      split at hplace
      · rename_i hends
        obtain ⟨rfl, hhead⟩ := hends
        obtain ⟨rest, rfl⟩ := List.head?_eq_some_iff.mp hhead
        exact ⟨[], rest, rfl, (Option.some.inj hplace).symm⟩
      · obtain ⟨later, hlater, rfl⟩ := Option.map_eq_some_iff.mp hplace
        obtain ⟨name, rest, rfl, rfl⟩ := ih hlater
        exact ⟨c :: name, rest, rfl, rfl⟩

theorem classEnd?_place (before rest : List Char) :
    classEnd? (before ++ '[' :: ':' :: rest) before.length =
      some ((colonBracket? rest).elim (before ++ '[' :: ':' :: rest).length fun place =>
        before.length + 2 + place + 2) := by
  have hslice := slice?_append (before ++ ['[', ':']) rest []
  have hplace : (before ++ ['[', ':']).length = before.length + 2 := List.length_append
  simp only [List.append_nil, List.append_assoc, List.cons_append, List.nil_append] at hslice
  rw [hplace] at hslice
  rw [classEnd?, hslice]
  rfl

theorem scanItems_name_next {c : Char} {rest : List Char}
    (hends : ¬ (c = ':' ∧ rest.head? = some ']')) (seen : List BracketItem) (name : List Char) :
    scanItems seen (some name) (c :: rest) = scanItems seen (some (c :: name)) rest := by
  rw [scanItems]
  intro more hcolon hbracket
  exact hends ⟨hcolon, by rw [hbracket, List.head?_cons]⟩

/-- A class is scanned up to the first colon with a closing bracket behind it. -/
theorem scanItems_name {text rest : List Char}
    (hplace : colonBracket? (text ++ ':' :: ']' :: rest) = some text.length)
    (seen : List BracketItem) (name : List Char) :
    scanItems seen (some name) (text ++ ':' :: ']' :: rest) =
      scanItems (.named (name.reverse ++ text) true :: seen) none rest := by
  induction text generalizing name with
  | nil => rw [List.nil_append, scanItems, List.append_nil]
  | cons c text ih =>
      rw [List.cons_append, colonBracket?_cons] at hplace
      split at hplace
      · cases hplace
      · rename_i hends
        rw [List.cons_append, scanItems_name_next hends, ih (by simpa using hplace)]
        simp

/-- A class that does not end takes all of the text. -/
theorem scanItems_open_name (hplace : colonBracket? cs = none) (seen : List BracketItem)
    (name : List Char) :
    scanItems seen (some name) cs =
      (seen.reverse ++ [.named (name.reverse ++ cs) false], false, []) := by
  induction cs generalizing name with
  | nil => rw [scanItems, List.reverse_cons, List.append_nil]
  | cons c cs ih =>
      rw [colonBracket?_cons] at hplace
      split at hplace
      · cases hplace
      · rename_i hends
        rw [scanItems_name_next hends, ih (by simpa using hplace)]
        simp

/-! ### Bracket expressions -/

/-- How scanning goes through the items of a bracket expression.  The text up to the end of the
expression comes first, and the text behind the expression last. -/
inductive Scans : List Char → List BracketItem → Bool → List Char → Prop where
  | nil : Scans [] [] false []
  | close (behind : List Char) : Scans [']'] [] true behind
  | named {name text : List Char} {items : List BracketItem} {closed : Bool} {behind : List Char}
      (hname : colonBracket? (name ++ [':', ']']) = some name.length)
      (hrest : Scans text items closed behind) :
      Scans ('[' :: ':' :: (name ++ ':' :: ']' :: text)) (.named name true :: items) closed behind
  | openName {name : List Char} (hname : colonBracket? name = none) :
      Scans ('[' :: ':' :: name) [.named name false] false []
  | member {c : Char} {text : List Char} {items : List BracketItem} {closed : Bool}
      {behind : List Char} (hclose : c ≠ ']')
      (hclass : c = '[' → (text ++ behind).head? ≠ some ':')
      (hrest : Scans text items closed behind) :
      Scans (c :: text) (.member c :: items) closed behind

variable {items : List BracketItem} {closed : Bool} {behind : List Char}

/-- What scanning makes of a text. -/
structure ScansTo (cs text : List Char) (items : List BracketItem) (closed : Bool)
    (behind : List Char) : Prop where
  eq_append : cs = text ++ behind
  scans : Scans text items closed behind
  scanItems_eq : ∀ seen, scanItems seen none cs = (seen.reverse ++ items, closed, behind)

theorem ScansTo.openName {name : List Char} (hname : colonBracket? name = none) :
    ScansTo ('[' :: ':' :: name) ('[' :: ':' :: name) [.named name false] false [] := by
  refine ⟨(List.append_nil _).symm, .openName hname, fun seen => ?_⟩
  rw [scanItems, scanItems_open_name hname]
  rfl

theorem ScansTo.named {name : List Char}
    (hname : colonBracket? (name ++ ':' :: ']' :: cs) = some name.length)
    (hrest : ScansTo cs text items closed behind) :
    ScansTo ('[' :: ':' :: (name ++ ':' :: ']' :: cs)) ('[' :: ':' :: (name ++ ':' :: ']' :: text))
      (.named name true :: items) closed behind := by
  refine ⟨by simp [hrest.eq_append], .named ?_ hrest.scans, fun seen => ?_⟩
  · rwa [colonBracket?_append] at hname
  · rw [scanItems, scanItems_name hname, hrest.scanItems_eq]
    simp

theorem ScansTo.member (hclose : c ≠ ']') (hclass : c = '[' → cs.head? ≠ some ':')
    (hrest : ScansTo cs text items closed behind) :
    ScansTo (c :: cs) (c :: text) (.member c :: items) closed behind := by
  refine ⟨by rw [hrest.eq_append, List.cons_append], .member hclose ?_ hrest.scans, fun seen => ?_⟩
  · rwa [← hrest.eq_append]
  · rw [scanItems, hrest.scanItems_eq]
    · simp
    · rintro more rfl rfl
      exact hclass rfl rfl
    · exact hclose

/-- The induction is on the length of the text because a class is scanned in one step. -/
theorem exists_scansTo (cs : List Char) :
    ∃ text items closed behind, ScansTo cs text items closed behind := by
  induction hlength : cs.length using Nat.strongRecOn generalizing cs with
  | ind length ih =>
      subst hlength
      cases cs with
      | nil => exact ⟨[], [], false, [], rfl, .nil, fun seen => by simp [scanItems]⟩
      | cons c cs =>
          by_cases hclose : c = ']'
          · subst hclose
            exact ⟨[']'], [], true, cs, rfl, .close cs, fun seen => by simp [scanItems]⟩
          by_cases hclass : c = '[' ∧ cs.head? = some ':'
          · obtain ⟨rfl, hhead⟩ := hclass
            obtain ⟨rest, rfl⟩ := List.head?_eq_some_iff.mp hhead
            cases hplace : colonBracket? rest with
            | none => exact ⟨_, _, _, _, .openName hplace⟩
            | some place =>
                obtain ⟨name, rest, rfl, rfl⟩ := exists_eq_append_of_colonBracket? hplace
                obtain ⟨text, items, closed, behind, hrest⟩ :=
                  ih rest.length (by simp; omega) rest rfl
                exact ⟨_, _, _, _, .named hplace hrest⟩
          · obtain ⟨text, items, closed, behind, hrest⟩ := ih cs.length (by simp) cs rfl
            exact ⟨_, _, _, _, .member hclose (fun hopen hhead => hclass ⟨hopen, hhead⟩) hrest⟩

theorem Scans.text_eq (hscans : Scans text items closed behind) :
    text = items.flatMap BracketItem.text ++ if closed then [']'] else [] := by
  induction hscans with
  | nil => rfl
  | close behind => rfl
  | named hname hrest ih => simp [BracketItem.text, ← ih]
  | openName hname => simp [BracketItem.text]
  | member hclose hclass hrest ih => simp [BracketItem.text, ← ih]

theorem skipTurn_end (cs : List Char) : skipTurn cs cs.length = some (.inr cs.length) := by
  rw [skipTurn, if_neg (Nat.lt_irrefl _)]
  rfl

theorem skipTurn_place (before : List Char) (c : Char) (rest : List Char) :
    skipTurn (before ++ c :: rest) before.length =
      if c = '[' ∧ rest.head? = some ':' then
        (classEnd? (before ++ c :: rest) before.length).map Sum.inl
      else if c = ']' then some (.inr (before.length + 1))
      else some (.inl (before.length + 1)) := by
  rw [skipTurn, if_pos (place_lt before (List.cons_ne_nil c rest)), getElem?_place, getElem?_next]
  simp only [List.head?_cons, Option.bind_eq_bind, Option.bind_some]
  split
  · exact Option.map_eq_bind.symm
  · rfl

/-- The place behind a class that ends. -/
theorem length_append_named (before name : List Char) :
    (before ++ '[' :: ':' :: (name ++ [':', ']'])).length =
      before.length + 2 + name.length + 2 := by
  simp
  omega

/-- The loop that looks for the end of a bracket expression stops where scanning does. -/
theorem Scans.ends_skipTurn (hscans : Scans text items closed behind) (before : List Char) :
    Ends (skipTurn (before ++ (text ++ behind))) text.length before.length
      (before ++ text).length := by
  induction hscans generalizing before with
  | nil => simpa using Ends.done (skipTurn_end before)
  | close behind =>
      apply Ends.done
      rw [List.singleton_append, skipTurn_place, List.length_append]
      rfl
  | @named name text items closed behind hname hrest ih =>
      have hends := ih (before ++ '[' :: ':' :: (name ++ [':', ']']))
      rw [length_append_named] at hends
      simp only [List.append_assoc, List.cons_append, List.nil_append] at hends ⊢
      refine Ends.next (by simp; omega) ?_ hends
      rw [skipTurn_place, if_pos ⟨rfl, rfl⟩, classEnd?_place, colonBracket?_append, hname]
      rfl
  | @openName name hname =>
      rw [List.append_nil]
      refine Ends.next (Nat.zero_lt_succ _) ?_ (Ends.done (skipTurn_end _))
      rw [skipTurn_place, if_pos ⟨rfl, rfl⟩, classEnd?_place, hname]
      rfl
  | @member c text items closed behind hclose hclass hrest ih =>
      have hends := ih (before ++ [c])
      rw [List.length_append] at hends
      simp only [List.append_assoc, List.cons_append, List.nil_append] at hends ⊢
      refine Ends.next (Nat.lt_succ_self _) ?_ hends
      rw [skipTurn_place, if_neg fun hopen => hclass hopen.1 hopen.2, if_neg hclose]
      rfl

theorem memberTurn_end (bracket out : List Char) :
    memberTurn bracket (bracket.length, out) = some (.inr out) := by
  rw [memberTurn, if_neg (Nat.lt_irrefl _)]
  rfl

theorem memberTurn_place (before : List Char) (c : Char) (rest out : List Char) :
    memberTurn (before ++ c :: rest) (before.length, out) =
      if c = '[' ∧ rest.head? = some ':' then do
        let close ← classEnd? (before ++ c :: rest) before.length
        let text ← slice? (before ++ c :: rest) before.length close
        return .inl (close, out ++ text)
      else some (.inl (before.length + 1, out ++ (BracketItem.member c).escapedText)) := by
  rw [memberTurn, if_pos (place_lt before (List.cons_ne_nil c rest)), getElem?_place, getElem?_next]
  simp only [List.head?_cons, Option.bind_eq_bind, Option.bind_some]
  split
  · rfl
  · rw [BracketItem.escapedText]
    split <;> rfl

/-- The loop that escapes members sees the same items as scanning did, although it sees nothing of
what stands behind the expression. -/
theorem Scans.ends_memberTurn (hscans : Scans text items closed behind) (before out : List Char) :
    Ends (memberTurn (before ++ text)) text.length (before.length, out)
      (out ++ (items.flatMap BracketItem.escapedText ++ if closed then [']'] else [])) := by
  induction hscans generalizing before out with
  | nil => simpa using Ends.done (memberTurn_end before out)
  | close behind =>
      have hend := memberTurn_end (before ++ [']']) (out ++ [']'])
      rw [List.length_append] at hend
      refine Ends.next Nat.one_pos ?_ (Ends.done hend)
      rw [memberTurn_place]
      rfl
  | @named name text items closed behind hname hrest ih =>
      have hends := ih (before ++ '[' :: ':' :: (name ++ [':', ']']))
        (out ++ (BracketItem.named name true).escapedText)
      have hslice := slice?_append before ('[' :: ':' :: (name ++ [':', ']'])) text
      rw [length_append_named] at hends hslice
      simp only [List.append_assoc, List.cons_append, List.nil_append, List.flatMap_cons]
        at hends hslice ⊢
      refine Ends.next (by simp; omega) ?_ hends
      rw [memberTurn_place, if_pos ⟨rfl, rfl⟩, classEnd?_place, colonBracket?_append, hname]
      simp only [Option.elim_some, Option.bind_eq_bind, Option.bind_some, hslice]
      rfl
  | @openName name hname =>
      have hslice := slice?_append before ('[' :: ':' :: name) []
      rw [List.append_nil] at hslice
      refine Ends.next (Nat.zero_lt_succ _) ?_ (Ends.done (memberTurn_end _ _))
      rw [memberTurn_place, if_pos ⟨rfl, rfl⟩, classEnd?_place, hname]
      simp only [Option.elim_none, Option.bind_eq_bind, Option.bind_some, hslice]
      simp [BracketItem.escapedText, BracketItem.text]
  | @member c text items closed behind hclose hclass hrest ih =>
      have hends := ih (before ++ [c]) (out ++ (BracketItem.member c).escapedText)
      rw [List.length_append] at hends
      simp only [List.append_assoc, List.cons_append, List.nil_append, List.flatMap_cons] at hends ⊢
      refine Ends.next (Nat.lt_succ_self _) ?_ hends
      rw [memberTurn_place, if_neg]
      · rfl
      · rintro ⟨hopen, hhead⟩
        apply hclass hopen
        rw [List.head?_append, hhead]
        rfl

/-- A character that may stand in front. -/
def optional (head : Char) (present : Bool) : List Char :=
  if present then [head] else []

theorem passHead_place {head : Char} {present : Bool}
    (habsent : present = false → rest.head? ≠ some head) (before : List Char) :
    passHead (before ++ (optional head present ++ rest)) head before.length =
      (before ++ optional head present).length := by
  rw [passHead, getElem?_place]
  cases present <;> simp_all [optional]

theorem writeHead_place {head : Char} {present : Bool}
    (habsent : present = false → rest.head? ≠ some head) (text before out : List Char) :
    writeHead (before ++ (optional head present ++ rest)) head text (before.length, out) =
      ((before ++ optional head present).length, out ++ if present then text else []) := by
  rw [writeHead, getElem?_place]
  cases present <;> simp_all [optional]

/-- The parts of a bracket expression behind its opening bracket, with the text of its items, and
what stands behind it. -/
structure Bracket.Parts (bracket : Bracket) (cs text behind : List Char) : Prop where
  eq_append : cs = optional '^' bracket.negated ++ (optional ']' bracket.closeFirst ++
    (text ++ behind))
  scans : Scans text bracket.items bracket.closed behind
  head_negated : bracket.negated = false →
    (optional ']' bracket.closeFirst ++ (text ++ behind)).head? ≠ some '^'
  head_closeFirst : bracket.closeFirst = false → (text ++ behind).head? ≠ some ']'

theorem Bracket.exists_parts (cs : List Char) :
    ∃ text, (scan cs).1.Parts cs text (scan cs).2 := by
  obtain ⟨text, items, closed, behind, htext, hscans, hitems⟩ :=
    exists_scansTo (takeHead ']' (takeHead '^' cs).2).2
  have hscan : scan cs =
      (⟨(takeHead '^' cs).1, (takeHead ']' (takeHead '^' cs).2).1, items, closed⟩, behind) := by
    rw [scan, hitems []]
    rfl
  rw [hscan]
  refine ⟨text, ?_, hscans, ?_, ?_⟩
  · rw [← htext]
    simp only [optional, takeHead_append]
  · intro habsent
    obtain ⟨hrest, hhead⟩ := head?_takeHead '^' cs habsent
    rw [← htext]
    simpa only [optional, takeHead_append, hrest] using hhead
  · intro habsent
    obtain ⟨hrest, hhead⟩ := head?_takeHead ']' (takeHead '^' cs).2 habsent
    rwa [← htext, hrest]

variable {bracket : Bracket}

theorem Bracket.Parts.text_eq (hparts : bracket.Parts cs text behind) :
    bracket.text =
      '[' :: (optional '^' bracket.negated ++ (optional ']' bracket.closeFirst ++ text)) := by
  rw [Bracket.text, hparts.scans.text_eq]
  simp [optional]

/-- The end of a bracket expression is looked for in the whole pattern. -/
theorem Bracket.Parts.bracketEnd?_eq (hparts : bracket.Parts cs text behind)
    (before : List Char) :
    bracketEnd? (before ++ '[' :: cs) before.length = some (before ++ bracket.text).length := by
  have hcaret := passHead_place hparts.head_negated (before ++ ['['])
  have hclose := passHead_place hparts.head_closeFirst
    (before ++ ['['] ++ optional '^' bracket.negated)
  have hends := hparts.scans.ends_skipTurn
    (before ++ ['['] ++ optional '^' bracket.negated ++ optional ']' bracket.closeFirst)
  have hplace : (before ++ ['[']).length = before.length + 1 := List.length_append
  rw [hplace] at hcaret
  simp only [List.append_assoc, List.cons_append, List.nil_append] at hcaret hclose hends
  rw [bracketEnd?, hparts.text_eq, hparts.eq_append, hcaret, hclose]
  exact hends.bind_eq (by simp; omega) fun states => rfl

/-- What stands first in a bracket expression does not depend on what stands behind it. -/
theorem Scans.head?_append (hscans : Scans text items closed behind) (front : List Char) :
    (front ++ (text ++ behind)).head? = (front ++ text).head? := by
  cases hscans with
  | nil => rfl
  | _ => cases front <;> rfl

/-- The members of a bracket expression are escaped without the text behind it. -/
theorem Bracket.Parts.escapeBracket?_eq (hparts : bracket.Parts cs text behind)
    (out : List Char) :
    escapeBracket? bracket.text out = some (out ++ bracket.escapedText) := by
  have hnegated := hparts.head_negated
  have hfirst := hparts.head_closeFirst
  rw [hparts.scans.head?_append] at hnegated
  rw [← List.nil_append (text ++ behind), hparts.scans.head?_append] at hfirst
  have hcaret := writeHead_place hnegated ['^'] ['['] (out ++ ['['])
  have hclose := writeHead_place hfirst ['\\', ']'] ('[' :: optional '^' bracket.negated)
    (out ++ ['['] ++ if bracket.negated then ['^'] else [])
  have hends := hparts.scans.ends_memberTurn
    ('[' :: (optional '^' bracket.negated ++ optional ']' bracket.closeFirst))
    (out ++ ['['] ++ (if bracket.negated then ['^'] else []) ++
      if bracket.closeFirst then ['\\', ']'] else [])
  simp only [List.append_assoc, List.cons_append, List.nil_append] at hcaret hclose hends
  rw [escapeBracket?, hparts.text_eq]
  simp only [List.length_singleton] at hcaret
  rw [hcaret, hclose]
  refine hends.bind_eq (by simp; omega) fun states => ?_
  rw [Bracket.escapedText]
  simp

end Pattern

end LogForwarding
