import LogForwarding.Bytes.Basic
import LogForwarding.Pattern.Syntax
import LogForwarding.Text.Blank

/-!
The reader of the dialect that compiles patterns.
-/

namespace LogForwarding.Pattern

def charOf? (code : Nat) : Option Char :=
  if h : code.isValidChar then some (Char.ofNatAux code h) else none

/-- The number of a list of hexadecimal digits. -/
def ofHex (digits : List Char) : Option Nat :=
  digits.foldlM (fun n c => (Bytes.hexDigitValue c).map (n * 16 + ·)) 0

/-- A character by its code point: a fixed number of digits, or any number of them in braces. -/
def readCode (width : Nat) : List Char → Option (Char × List Char)
  | '\x7b' :: rest => do
      let digits := rest.takeWhile (· ≠ '\x7d')
      let code ← ofHex digits
      if digits = [] ∨ rest.length = digits.length then none
      else
        let c ← charOf? code
        return (c, rest.drop (digits.length + 1))
  | cs => do
      let digits := cs.take width
      let c ← (ofHex digits).bind charOf?
      if digits.length < width then none else return (c, cs.drop width)

/-- The name of a Unicode property, one letter or a text in braces. -/
def readProperty : List Char → Option (String × List Char)
  | [] => none
  | '\x7b' :: rest =>
      let name := rest.takeWhile (· ≠ '\x7d')
      if rest.length = name.length then none
      else some (String.ofList name, rest.drop (name.length + 1))
  | c :: rest => some (String.singleton c, rest)

/-- The character that a letter behind a backslash stands for. -/
def letterEscape (c : Char) : Option Char :=
  match c with
  | 'a' => some '\x07'
  | 'f' => some '\x0c'
  | 't' => some '\t'
  | 'n' => some '\n'
  | 'r' => some '\r'
  | 'v' => some '\x0b'
  | _ => none

/-- The number of digits that a code point has behind a letter. -/
def codeWidth (c : Char) : Option Nat :=
  match c with
  | 'x' => some 2
  | 'u' => some 4
  | 'U' => some 8
  | _ => none

def readEscape : List Char → Option (Ast × List Char)
  | [] => none
  | c :: rest =>
      if isMeta c ∨ isEscapable c then some (.literal c .escaped, rest)
      else if c ∈ ['d', 's', 'w', 'D', 'S', 'W'] then some (.letterClass c, rest)
      else if c = 'p' ∨ c = 'P' then
        (readProperty rest).map fun (name, rest) => (.property c name, rest)
      else if c ∈ ['A', 'z', 'b', 'B', '<', '>'] then some (.assertion c, rest)
      else
        match letterEscape c, codeWidth c with
        | some letter, _ => some (.literal letter .letter, rest)
        | none, some width =>
            (readCode width rest).map fun (value, rest) => (.literal value (.code c), rest)
        | none, none => none

/-- A class such as `[:^digit:]`, behind its first bracket. -/
def readNamedClass : List Char → Option (ClassItem × List Char)
  | ':' :: rest =>
      let (negated, rest) := match rest with
        | '^' :: rest => (true, rest)
        | _ => (false, rest)
      let name := String.ofList (rest.takeWhile (· ≠ ':'))
      match rest.dropWhile (· ≠ ':') with
      | ':' :: ']' :: rest => if name ∈ classNames then some (.named name negated, rest) else none
      | _ => none
  | _ => none

/-- One end of a range, or a class of its own. -/
def readClassPrimitive : List Char → Option (Ast × List Char)
  | [] => none
  | '\\' :: rest => readEscape rest
  | c :: rest => some (.literal c .verbatim, rest)

def itemOfAst : Ast → Option ClassItem
  | .literal c form => some (.literal c form)
  | .letterClass letter => some (.letterClass letter)
  | .property letter name => some (.property letter name)
  | _ => none

/-- A single item or a range between brackets. -/
def readRange (cs : List Char) : Option (ClassItem × List Char) := do
  let (first, rest) ← readClassPrimitive cs
  let single := (itemOfAst first).map fun item => (item, rest)
  match rest with
  | [] => none
  | '-' :: ']' :: _ => single
  | '-' :: '-' :: _ => single
  | '-' :: rest =>
      let (last, rest) ← readClassPrimitive rest
      match first, last with
      | .literal low _, .literal high _ =>
          if low ≤ high then some (.range low high, rest) else none
      | _, _ => none
  | _ => single

/-- The members that stand first between brackets: hyphens, or a closing bracket. -/
def readFirstMembers (cs : List Char) : List ClassItem × List Char :=
  let hyphens := cs.takeWhile (· = '-')
  let rest := cs.dropWhile (· = '-')
  match hyphens, rest with
  | [], ']' :: rest => ([.literal ']' .verbatim], rest)
  | _, _ => (hyphens.map fun c => .literal c .verbatim, rest)

/-- A set with the operation that is still to be applied to it. -/
def applyPending (pending : Option (SetOperation × ClassSet)) (set : ClassSet) : ClassSet :=
  match pending with
  | none => set
  | some (op, left) => .operation op left set

mutual

/-- A set behind its opening bracket, with its negation. -/
def readBracket : (fuel : Nat) → List Char → Option (Bool × ClassSet × List Char)
  | 0, _ => none
  | fuel + 1, cs => do
      let (negated, cs) := match cs with
        | '^' :: rest => (true, rest)
        | _ => (false, cs)
      let (first, rest) := readFirstMembers cs
      if rest = [] then none
      else
        let (set, rest) ← readSet none first.reverse fuel rest
        return (negated, set, rest)

/-- The items of a set up to its closing bracket; `seen` holds those read so far in reverse. -/
def readSet (pending : Option (SetOperation × ClassSet)) (seen : List ClassItem) :
    (fuel : Nat) → List Char → Option (ClassSet × List Char)
  | 0, _ => none
  | fuel + 1, cs =>
      let operate (op : SetOperation) (rest : List Char) :=
        readSet (some (op, applyPending pending (.items seen.reverse))) [] fuel rest
      match cs with
      | [] => none
      | ']' :: rest => some (applyPending pending (.items seen.reverse), rest)
      | '&' :: '&' :: rest => operate .intersection rest
      | '-' :: '-' :: rest => operate .difference rest
      | '~' :: '~' :: rest => operate .symmetricDifference rest
      | '[' :: rest =>
          match readNamedClass rest with
          | some (item, rest) => readSet pending (item :: seen) fuel rest
          | none => do
              let (negated, set, rest) ← readBracket fuel rest
              readSet pending (.nested negated set :: seen) fuel rest
      | _ => do
          let (item, rest) ← readRange cs
          readSet pending (item :: seen) fuel rest

end

/-- A decimal number that fits 32 bits, with white space around it. -/
def readDecimal (cs : List Char) : Option (Nat × List Char) :=
  let cs := cs.dropWhile Text.isBlank
  let digits := cs.takeWhile Char.isDigit
  let rest := (cs.dropWhile Char.isDigit).dropWhile Text.isBlank
  let n := digits.foldl (fun n c => n * 10 + (c.toNat - '0'.toNat)) 0
  if digits = [] ∨ UInt32.size ≤ n then none else some (n, rest)

/-- The bounds of a counted repetition behind its opening brace. -/
def readBounds (cs : List Char) : Option (Repetition × List Char) := do
  let (least, rest) ← readDecimal cs
  match rest with
  | '\x7d' :: rest => return (⟨least, some least⟩, rest)
  | ',' :: '\x7d' :: rest => return (⟨least, none⟩, rest)
  | ',' :: rest =>
      let (most, rest) ← readDecimal rest
      match rest with
      | '\x7d' :: rest => if least ≤ most then some (⟨least, some most⟩, rest) else none
      | _ => none
  | _ => none

def readRepetition : List Char → Option (Repetition × List Char)
  | '*' :: rest => some (⟨0, none⟩, rest)
  | '+' :: rest => some (⟨1, none⟩, rest)
  | '?' :: rest => some (⟨0, some 1⟩, rest)
  | '\x7b' :: rest => readBounds rest
  | _ => none

/-- The repetition of the last part, which must be there and must not be mere flags. -/
def repeatLast (range : Repetition) (greedy : Bool) : List Ast → Option (List Ast)
  | [] => none
  | .setFlags _ :: _ => none
  | last :: rest => some (.repetition range greedy last :: rest)

/-- Flags up to a colon or a closing parenthesis. -/
def readFlags (cs : List Char) : Option (String × List Char) :=
  let isFlag (c : Char) : Bool := c ∈ ['i', 'm', 's', 'U', 'u', 'R', 'x', '-']
  let flags := cs.takeWhile isFlag
  let rest := cs.dropWhile isFlag
  let letters := flags.filter (· ≠ '-')
  if (flags.filter (· = '-')).length ≤ 1 ∧ flags.getLast? ≠ some '-' ∧ letters.Nodup then
    some (String.ofList flags, rest)
  else none

/-- The name of a group up to its closing angle bracket. -/
def readGroupName (cs : List Char) : Option (String × List Char) :=
  let name := cs.takeWhile (· ≠ '>')
  let isStart (c : Char) : Bool := c.isAlpha ∨ c = '_'
  let isRest (c : Char) : Bool := isStart c ∨ c.isDigit ∨ c ∈ ['.', '[', ']']
  if cs.length = name.length ∨ ¬ (name.head?.any isStart) ∨ ¬ name.all isRest then none
  else some (String.ofList name, cs.drop (name.length + 1))

/-- What a pair of parentheses does, behind the opening one; for bare flags there is no body. -/
def readGroupKind : List Char → Option (GroupKind × Bool × List Char)
  | '?' :: 'P' :: '<' :: rest =>
      (readGroupName rest).map fun (n, rest) => (.namedCapture n, true, rest)
  | '?' :: '<' :: '=' :: _ => none
  | '?' :: '<' :: '!' :: _ => none
  | '?' :: '<' :: rest => (readGroupName rest).map fun (n, rest) => (.namedCapture n, true, rest)
  | '?' :: rest => do
      let (flags, rest) ← readFlags rest
      match rest with
      | ')' :: rest => if flags = "" then none else some (.flags flags, false, rest)
      | ':' :: rest => some (.flags flags, true, rest)
      | _ => none
  | rest => some (.capture, true, rest)

/-- The parts of a sequence as one pattern. -/
def concatOf (parts : List Ast) : Ast :=
  match parts with
  | [] => .empty
  | [part] => part
  | parts => .concat parts

/-- The branches of an alternation as one pattern. -/
def alternationOf (branches : List Ast) : Ast :=
  match branches with
  | [branch] => branch
  | branches => .alternation branches

/-- Reads a pattern up to the parenthesis that closes it, or to the end.  `branches` holds the
complete branches and `parts` the parts of the current one, both in reverse. -/
def readParts (branches parts : List Ast) :
    (fuel : Nat) → List Char → Option (Ast × List Char)
  | 0, _ => none
  | fuel + 1, cs =>
      let finished (rest : List Char) : Option (Ast × List Char) :=
        some (alternationOf (concatOf parts.reverse :: branches).reverse, rest)
      let append (part : Ast) (rest : List Char) := readParts branches (part :: parts) fuel rest
      match cs with
      | [] => finished []
      | ')' :: _ => finished cs
      | '|' :: rest => readParts (concatOf parts.reverse :: branches) [] fuel rest
      | '(' :: rest => do
          let (kind, hasBody, rest) ← readGroupKind rest
          if hasBody then
            match ← readParts [] [] fuel rest with
            | (body, ')' :: rest) => append (.group kind body) rest
            | _ => none
          else
            match kind with
            | .flags flags => append (.setFlags flags) rest
            | _ => none
      | '[' :: rest => do
          let (negated, set, rest) ← readBracket fuel rest
          append (.bracket negated set) rest
      | '\\' :: rest => do
          let (part, rest) ← readEscape rest
          append part rest
      | '.' :: rest => append .dot rest
      | '^' :: rest => append .startOfText rest
      | '$' :: rest => append .endOfText rest
      | c :: rest =>
          if c = '*' ∨ c = '+' ∨ c = '?' ∨ c = '\x7b' then do
            let (range, rest) ← readRepetition cs
            let (greedy, rest) := match rest with
              | '?' :: rest => (false, rest)
              | _ => (true, rest)
            let parts ← repeatLast range greedy parts
            readParts branches parts fuel rest
          else append (.literal c .verbatim) rest

def maxNesting : Nat := 250

def Ast.read? (pattern : List Char) : Option Ast :=
  match readParts [] [] (3 * pattern.length + 3) pattern with
  | some (ast, []) => if ast.depth ≤ maxNesting then some ast else none
  | _ => none

end LogForwarding.Pattern
