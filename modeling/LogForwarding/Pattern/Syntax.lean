/-!
The syntax trees of the dialect that compiles patterns.  It has more than POSIX patterns have:
letter classes, assertions, lazy repetitions, flags, and set operations in brackets.
-/

namespace LogForwarding.Pattern

/-- How a literal character is written. -/
inductive LiteralForm where
  /-- As it is. -/
  | verbatim
  /-- Behind a backslash that only takes away a special meaning, or does nothing. -/
  | escaped
  /-- As a letter behind a backslash. -/
  | letter
  /-- By its code point, behind the given letter. -/
  | code (letter : Char)
deriving DecidableEq, Repr, Inhabited

/-- The operations on sets of characters. -/
inductive SetOperation where
  | intersection
  | difference
  | symmetricDifference
deriving DecidableEq, Repr, Inhabited

mutual

/-- An item between brackets. -/
inductive ClassItem where
  | literal (c : Char) (form : LiteralForm)
  | range (low high : Char)
  /-- A class such as `[:digit:]`. -/
  | named (name : String) (negated : Bool)
  /-- A class such as `\d`. -/
  | letterClass (letter : Char)
  /-- A class of a Unicode property. -/
  | property (letter : Char) (name : String)
  | nested (negated : Bool) (set : ClassSet)

/-- What stands between brackets. -/
inductive ClassSet where
  | items (items : List ClassItem)
  | operation (op : SetOperation) (left right : ClassSet)

end

/-- How often the expression before a repetition occurs. -/
structure Repetition where
  least : Nat
  /-- No limit when absent. -/
  most : Option Nat
deriving DecidableEq, Repr, Inhabited

/-- What a pair of parentheses does. -/
inductive GroupKind where
  | capture
  | namedCapture (name : String)
  | flags (flags : String)
deriving DecidableEq, Repr, Inhabited

/-- A pattern. -/
inductive Ast where
  | empty
  | literal (c : Char) (form : LiteralForm)
  | dot
  | startOfText
  | endOfText
  /-- An assertion that is written as a backslash and a character. -/
  | assertion (letter : Char)
  | letterClass (letter : Char)
  | property (letter : Char) (name : String)
  | bracket (negated : Bool) (set : ClassSet)
  | repetition (range : Repetition) (greedy : Bool) (body : Ast)
  | group (kind : GroupKind) (body : Ast)
  /-- Flags for the rest of a group. -/
  | setFlags (flags : String)
  | concat (parts : List Ast)
  | alternation (branches : List Ast)
deriving Inhabited

/-- The names of the POSIX classes and the word class. -/
def classNames : List String :=
  ["alnum", "alpha", "ascii", "blank", "cntrl", "digit", "graph", "lower", "print", "punct",
    "space", "upper", "word", "xdigit"]

/-- Characters with a special meaning somewhere in a pattern. -/
def isMeta (c : Char) : Bool :=
  c ∈ ['\\', '.', '+', '*', '?', '(', ')', '|', '[', ']', '\x7b', '\x7d', '^', '$', '#', '&', '-',
    '~']

/-- Characters that may stand behind a backslash for themselves: ASCII without letters, digits and
the two angle brackets, which mark the ends of words. -/
def isEscapable (c : Char) : Bool :=
  c.toNat < 0x80 ∧ ¬ c.isAlphanum ∧ c ≠ '<' ∧ c ≠ '>'

mutual

def ClassItem.depth : ClassItem → Nat
  | .nested _ set => 1 + set.depth
  | _ => 0

/-- How deep a set is nested; a list of several items counts as a level. -/
def ClassSet.depth : ClassSet → Nat
  | .items [] => 0
  | .items [item] => item.depth
  | .items (first :: second :: rest) => 1 + max first.depth (max second.depth (itemsDepth rest))
  | .operation _ left right => 1 + max left.depth right.depth

def itemsDepth : List ClassItem → Nat
  | [] => 0
  | item :: rest => max item.depth (itemsDepth rest)

end

mutual

def Ast.depth : Ast → Nat
  | .bracket _ set => 1 + set.depth
  | .repetition _ _ body => 1 + body.depth
  | .group _ body => 1 + body.depth
  | .concat parts => 1 + partsDepth parts
  | .alternation branches => 1 + partsDepth branches
  | _ => 0

def partsDepth : List Ast → Nat
  | [] => 0
  | part :: rest => max part.depth (partsDepth rest)

end

end LogForwarding.Pattern
