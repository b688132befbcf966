import LogForwarding.Pattern.Syntax

/-!
How large the automaton of a pattern is, in bytes.  Repetitions are unrolled, a literal takes a
state for each byte of its UTF-8 form, and a set of characters takes the states of the smallest
automaton for the UTF-8 forms of its members.  Only patterns whose automaton stays below a limit
are compiled.
-/

namespace LogForwarding.Pattern

/-- Ranges of code points, in increasing order and apart from one another. -/
abbrev CodeRanges := List (Nat × Nat)

namespace CodeRanges

/-- Adds a range to ranges that begin no later, merging what touches; the last range stands
first. -/
private def push (ranges : CodeRanges) (range : Nat × Nat) : CodeRanges :=
  match ranges with
  | [] => [range]
  | (low, high) :: rest =>
      if range.1 ≤ high + 1 then (low, max high range.2) :: rest else range :: ranges

def ofList (ranges : List (Nat × Nat)) : CodeRanges :=
  ((ranges.mergeSort fun a b => a.1 ≤ b.1).foldl push []).reverse

/-- The ranges between some ranges, from a code point on. -/
private def gaps (start : Nat) : CodeRanges → CodeRanges
  | [] => if start ≤ 0x10FFFF then [(start, 0x10FFFF)] else []
  | (low, high) :: rest =>
      if start < low then (start, low - 1) :: gaps (high + 1) rest else gaps (high + 1) rest

def complement (ranges : CodeRanges) : CodeRanges :=
  gaps 0 ranges

def union (a b : CodeRanges) : CodeRanges :=
  ofList (a ++ b)

def inter (a b : CodeRanges) : CodeRanges :=
  complement (union (complement a) (complement b))

end CodeRanges

/-- The members of a named class, all of them ASCII. -/
def namedRanges (name : String) : CodeRanges :=
  match name with
  | "alnum" => [(0x30, 0x39), (0x41, 0x5A), (0x61, 0x7A)]
  | "alpha" => [(0x41, 0x5A), (0x61, 0x7A)]
  | "ascii" => [(0, 0x7F)]
  | "blank" => [(9, 9), (0x20, 0x20)]
  | "cntrl" => [(0, 0x1F), (0x7F, 0x7F)]
  | "digit" => [(0x30, 0x39)]
  | "graph" => [(0x21, 0x7E)]
  | "lower" => [(0x61, 0x7A)]
  | "print" => [(0x20, 0x7E)]
  | "punct" => [(0x21, 0x2F), (0x3A, 0x40), (0x5B, 0x60), (0x7B, 0x7E)]
  | "space" => [(9, 0xD), (0x20, 0x20)]
  | "upper" => [(0x41, 0x5A)]
  | "word" => [(0x30, 0x39), (0x41, 0x5A), (0x5F, 0x5F), (0x61, 0x7A)]
  | "xdigit" => [(0x30, 0x39), (0x41, 0x46), (0x61, 0x66)]
  | _ => []

private def negateIf (negated : Bool) (ranges : CodeRanges) : CodeRanges :=
  if negated then ranges.complement else ranges

mutual

/-- The members of an item between brackets.  Letter classes and properties do not occur in
escaped patterns and count as empty. -/
def ClassItem.ranges : ClassItem → CodeRanges
  | .literal c _ => [(c.toNat, c.toNat)]
  | .range low high => [(low.toNat, high.toNat)]
  | .named name negated => negateIf negated (namedRanges name)
  | .letterClass _ => []
  | .property _ _ => []
  | .nested negated set => negateIf negated set.ranges

def ClassSet.ranges : ClassSet → CodeRanges
  | .items items => CodeRanges.ofList (itemRanges items)
  | .operation .intersection left right => left.ranges.inter right.ranges
  | .operation .difference left right => left.ranges.inter right.ranges.complement
  | .operation .symmetricDifference left right =>
      CodeRanges.union (left.ranges.inter right.ranges.complement)
        (right.ranges.inter left.ranges.complement)

/-- The members of some items, in no order. -/
def itemRanges : List ClassItem → List (Nat × Nat)
  | [] => []
  | item :: rest => item.ranges ++ itemRanges rest

end

abbrev ByteRanges := List (Nat × Nat)

private def continuation : Nat × Nat := (0x80, 0xBF)

/-- The byte sequences of a range of numbers that are written in `size` continuation bytes behind a
head, whose bits the given function turns into a byte. -/
private def sequencesBehind : (size : Nat) → (head : Nat → Nat) → Nat → Nat → List ByteRanges
  | 0, head, low, high => [[(head low, head high)]]
  | size + 1, head, low, high =>
      let unit := Nat.pow 64 (size + 1)
      let rest (low high : Nat) : List ByteRanges :=
        sequencesBehind size (fun n => 0x80 + n) low high
      let within (h low high : Nat) : List ByteRanges :=
        (rest low high).map fun tail => (head h, head h) :: tail
      let first := low / unit
      let last := high / unit
      if first = last then within first (low % unit) (high % unit)
      else
        -- only a head all of whose tails are covered can be joined with its neighbours
        let lowPart := if low % unit = 0 then [] else within first (low % unit) (unit - 1)
        let highPart := if high % unit = unit - 1 then [] else within last 0 (high % unit)
        let from' := if low % unit = 0 then first else first + 1
        let upto := if high % unit = unit - 1 then last + 1 else last
        let middle :=
          if from' < upto then
            [(head from', head (upto - 1)) :: List.replicate (size + 1) continuation]
          else []
        lowPart ++ middle ++ highPart

/-- The UTF-8 byte sequences of a range of code points; surrogates have none. -/
def utf8Sequences (low high : Nat) : List ByteRanges :=
  let part (bottom top size base : Nat) : List ByteRanges :=
    let l := max low bottom
    let h := min high top
    if l ≤ h then sequencesBehind size (fun n => base + n) l h else []
  part 0 0x7F 0 0 ++ part 0x80 0x7FF 1 0xC0 ++ part 0x800 0xD7FF 2 0xE0 ++
    part 0xE000 0xFFFF 2 0xE0 ++ part 0x10000 0x10FFFF 3 0xF0

/-- Groups sequences by their first range, in order. -/
private def groupByHead (sequences : List ByteRanges) : List ((Nat × Nat) × List ByteRanges) :=
  sequences.foldr (fun sequence groups =>
    match sequence with
    | [] => groups
    | head :: tail =>
        match groups with
        | (other, tails) :: rest =>
            if head = other then (head, tail :: tails) :: rest else (head, [tail]) :: groups
        | [] => [(head, [tail])]) []

/-- The sets of tails that the states of the smallest automaton stand for. -/
private def tailSets : (fuel : Nat) → List ByteRanges → List (List ByteRanges)
  | 0, _ => []
  | fuel + 1, sequences =>
      sequences :: (groupByHead sequences).flatMap fun (_, tails) =>
        if tails.all (· = []) then [] else tailSets fuel tails

private def stateSize : Nat := 32

private def rangesCost (ranges : CodeRanges) : Nat :=
  if ranges.all fun r => r.2 < 0x80 then 2 * stateSize + 8 * ranges.length
  else
    let sequences := ranges.flatMap fun r => utf8Sequences r.1 r.2
    let states := (tailSets 5 sequences).eraseDups
    let forward := states.foldl (fun total s =>
      let branches := (groupByHead s).length
      total + stateSize + if branches = 1 then 0 else 8 * branches) stateSize
    -- the automaton that reads backwards shares only what sequences begin with
    let beginnings := (sequences.flatMap fun s => (List.range s.length).map fun n => s.take (n + 1))
    let backward := stateSize * (2 + beginnings.eraseDups.length) + 4 * sequences.length
    max forward backward

mutual

/-- The least number of characters that a pattern matches. -/
def Ast.leastLength : Ast → Nat
  | .literal _ _ | .dot | .letterClass _ | .property _ _ | .bracket _ _ => 1
  | .empty | .startOfText | .endOfText | .assertion _ | .setFlags _ => 0
  | .repetition range _ body => range.least * body.leastLength
  | .group _ body => body.leastLength
  | .concat parts => totalLength parts
  | .alternation branches => leastOfAll branches

def totalLength : List Ast → Nat
  | [] => 0
  | part :: rest => part.leastLength + totalLength rest

def leastOfAll : List Ast → Nat
  | [] => 0
  | [branch] => branch.leastLength
  | branch :: rest => min branch.leastLength (leastOfAll rest)

end

mutual

/-- Whether a pattern matches nothing but the empty text. -/
def Ast.onlyEmpty : Ast → Bool
  | .literal _ _ | .dot | .letterClass _ | .property _ _ | .bracket _ _ => false
  | .empty | .startOfText | .endOfText | .assertion _ | .setFlags _ => true
  | .repetition range _ body => range.most = some 0 || body.onlyEmpty
  | .group _ body => body.onlyEmpty
  | .concat parts => allOnlyEmpty parts
  | .alternation branches => allOnlyEmpty branches

/-- Whether some patterns match nothing but the empty text. -/
def allOnlyEmpty : List Ast → Bool
  | [] => true
  | part :: rest => part.onlyEmpty && allOnlyEmpty rest

end

/-- The states of a repetition whose body takes `body` bytes and may match the empty text or not. -/
private def repetitionCost (range : Repetition) (body : Nat) (mayBeEmpty : Bool) : Nat :=
  let branch := stateSize + 8
  match range.least, range.most with
  | 0, some 0 => stateSize
  | least, some most =>
      if most = least then least * body
      else least * body + stateSize + (most - least) * (branch + body)
  | 0, none => if mayBeEmpty then body + 2 * branch + stateSize else body + branch
  | least, none => least * body + branch

/-- A repetition of what matches only the empty text need not be repeated. -/
private def effectiveRange (range : Repetition) (onlyEmpty : Bool) : Repetition :=
  if onlyEmpty then ⟨min range.least 1, some (min (range.most.getD 1) 1)⟩ else range

/-- The number of bytes of the UTF-8 form of a character. -/
private def charCost (c : Char) : Nat :=
  stateSize * c.utf8Size

/-- The members of a pattern that stands for one character. -/
def Ast.singleRanges : Ast → Option CodeRanges
  | .literal c _ => some [(c.toNat, c.toNat)]
  | .bracket negated set => some (negateIf negated set.ranges)
  | _ => none

mutual

/-- The size of the states of a pattern. -/
def Ast.cost : Ast → Nat
  | .empty => stateSize
  | .literal c _ => charCost c
  | .dot => rangesCost (CodeRanges.complement [(0xA, 0xA)])
  | .startOfText | .endOfText | .assertion _ => stateSize
  | .letterClass _ | .property _ _ => stateSize
  | .setFlags _ => stateSize
  | .bracket negated set => rangesCost (negateIf negated set.ranges)
  | .repetition range _ body =>
      repetitionCost (effectiveRange range body.onlyEmpty) body.cost (body.leastLength = 0)
  | .group _ body => 2 * stateSize + body.cost
  | .concat parts => partsCost parts
  | .alternation branches =>
      match branches.mapM Ast.singleRanges with
      | some ranges => rangesCost (CodeRanges.ofList ranges.flatten)
      | none => 2 * stateSize + 4 * branches.length + partsCost branches

/-- The size of the states of some patterns. -/
def partsCost : List Ast → Nat
  | [] => 0
  | part :: rest => part.cost + partsCost rest

end

/-- The states in front of and behind every pattern. -/
def frameCost : Nat := 6 * stateSize

/-- The limit on the size of an automaton. -/
def maxCost : Nat := 10 * 1024 * 1024

/-- Whether the automaton of a pattern stays below the limit. -/
def Ast.isCompilable (ast : Ast) : Bool :=
  ast.cost + frameCost ≤ maxCost

end LogForwarding.Pattern
