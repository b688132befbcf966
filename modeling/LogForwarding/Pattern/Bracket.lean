/-!
Bracket expressions of POSIX patterns, such as `[^]a-z[:digit:]]`.  Inside of brackets every
character stands for itself, and a backslash is no exception.  The dialect that compiles
patterns gives some of these characters a meaning there, so they are escaped.
-/

namespace LogForwarding.Pattern

/-- What stands between the brackets. -/
inductive BracketItem where
  /-- A character for itself, or one that belongs to a range. -/
  | member (c : Char)
  /-- A named class; the last one of a pattern may lack its end. -/
  | named (name : List Char) (closed : Bool)
deriving DecidableEq, Repr, Inhabited

/-- A bracket expression.  Without a closing bracket it extends to the end of the pattern. -/
structure Bracket where
  negated : Bool
  /-- A closing bracket stands first and is therefore a member. -/
  closeFirst : Bool
  items : List BracketItem
  closed : Bool
deriving DecidableEq, Repr, Inhabited

def BracketItem.text : BracketItem → List Char
  | .member c => [c]
  | .named name closed => '[' :: ':' :: name ++ (if closed then [':', ']'] else [])

def Bracket.text (bracket : Bracket) : List Char :=
  '[' :: (if bracket.negated then ['^'] else []) ++ (if bracket.closeFirst then [']'] else []) ++
    bracket.items.flatMap BracketItem.text ++ (if bracket.closed then [']'] else [])

/-- The members that the compiled pattern must escape. -/
def needsEscape (c : Char) : Bool :=
  c = '\\' ∨ c = '[' ∨ c = '&' ∨ c = '~'

/-- The characters of an item, with a member escaped where that is needed. -/
def BracketItem.escapedText : BracketItem → List Char
  | .member c => if needsEscape c then ['\\', c] else [c]
  | .named name closed => (BracketItem.named name closed).text

/-- The bracket expression with its members escaped where that is needed. -/
def Bracket.escapedText (bracket : Bracket) : List Char :=
  '[' :: (if bracket.negated then ['^'] else []) ++
    (if bracket.closeFirst then ['\\', ']'] else []) ++
    bracket.items.flatMap BracketItem.escapedText ++ (if bracket.closed then [']'] else [])

/-- Reads items up to the closing bracket.  `seen` holds the items read so far and `name` the name
of a class whose end was not reached yet, both in reverse. -/
def scanItems (seen : List BracketItem) :
    (name : Option (List Char)) → List Char → List BracketItem × Bool × List Char
  | none, [] => (seen.reverse, false, [])
  | none, '[' :: ':' :: rest => scanItems seen (some []) rest
  | none, ']' :: rest => (seen.reverse, true, rest)
  | none, c :: rest => scanItems (.member c :: seen) none rest
  | some name, [] => ((BracketItem.named name.reverse false :: seen).reverse, false, [])
  | some name, ':' :: ']' :: rest => scanItems (.named name.reverse true :: seen) none rest
  | some name, c :: rest => scanItems seen (some (c :: name)) rest

/-- Whether a text begins with a character, and the text without it. -/
def takeHead (head : Char) : List Char → Bool × List Char
  | [] => (false, [])
  | c :: rest => if c = head then (true, rest) else (false, c :: rest)

/-- Reads a bracket expression behind its opening bracket. -/
def Bracket.scan (cs : List Char) : Bracket × List Char :=
  let negated := takeHead '^' cs
  let closeFirst := takeHead ']' negated.2
  let body := scanItems [] none closeFirst.2
  (⟨negated.1, closeFirst.1, body.1, body.2.1⟩, body.2.2)

theorem takeHead_length_le (head : Char) (cs : List Char) :
    (takeHead head cs).2.length ≤ cs.length := by
  fun_cases takeHead head cs <;> simp_all

theorem scanItems_rest_length_le (seen : List BracketItem) (name : Option (List Char))
    (cs : List Char) : (scanItems seen name cs).2.2.length ≤ cs.length := by
  fun_induction scanItems seen name cs <;> simp_all <;> omega

/-- What is left behind a bracket expression is no longer than what was there. -/
theorem Bracket.scan_rest_length_le (cs : List Char) : (scan cs).2.length ≤ cs.length :=
  Nat.le_trans (scanItems_rest_length_le [] none _)
    (Nat.le_trans (takeHead_length_le ']' _) (takeHead_length_le '^' cs))

end LogForwarding.Pattern
