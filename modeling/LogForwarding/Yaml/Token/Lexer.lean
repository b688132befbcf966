import LogForwarding.Yaml.Token.Block
import LogForwarding.Yaml.Token.Plain
import LogForwarding.Yaml.Token.Quoted
import LogForwarding.Yaml.Token.Tag

/-!
From characters to tokens.  Indentation becomes explicit block tokens, and a `key` token is put in
front of a simple key once the colon behind it shows that it was one.
-/

namespace LogForwarding.Yaml

/-- A place where a simple key may have begun. -/
structure KeyCandidate where
  /-- The number of the token that would be the key. -/
  token : Nat
  site : Sited
  /-- Nothing but a key can stand here. -/
  required : Bool
deriving DecidableEq, Repr, Inhabited

/-- The state of the lexer between two tokens. -/
structure Lexer where
  source : Source
  tokens : Array Token
  /-- The indentation of the innermost block, -1 outside of all blocks. -/
  indent : Int
  /-- The indentations of the enclosing blocks, innermost first. -/
  indents : List Int
  /-- One possible key for each enclosing collection in brackets, innermost first, and one for the
  block level. -/
  candidates : List (Option KeyCandidate)
  /-- Whether a simple key may begin at the next token. -/
  keyAllowed : Bool

namespace Lexer

/-- The lexer at the start of a stream. -/
def initial (source : Source) : Lexer :=
  ⟨source, #[], -1, [], [none], true⟩

def inFlow (s : Lexer) : Bool :=
  1 < s.candidates.length

def column (s : Lexer) : Nat :=
  s.source.site.column

def emit (s : Lexer) (token : Token) : Lexer :=
  ⟨s.source, s.tokens.push token, s.indent, s.indents, s.candidates, s.keyAllowed⟩

/-- Moves on to a later place of the stream. -/
def moveTo (s : Lexer) (source : Source) : Lexer :=
  ⟨source, s.tokens, s.indent, s.indents, s.candidates, s.keyAllowed⟩

def pass (s : Lexer) (count : Nat) : Lexer :=
  s.moveTo (s.source.drop count)

/-- Says whether a simple key may begin at the next token. -/
def allowKey (s : Lexer) (allowed : Bool) : Lexer :=
  ⟨s.source, s.tokens, s.indent, s.indents, s.candidates, allowed⟩

def withCandidates (s : Lexer) (candidates : List (Option KeyCandidate)) : Lexer :=
  ⟨s.source, s.tokens, s.indent, s.indents, candidates, s.keyAllowed⟩

/-- Passes white space, comments and marks at the start of a line.  A line break outside of brackets
lets a key begin, and where a key may begin a tab is no white space. -/
def toNextToken (flow : Bool) (allowed comment : Bool) : Source → Source × Bool
  | [] => ([], allowed)
  | c :: rest =>
      if isBreak c.char then toNextToken flow (allowed || !flow) false rest
      else if comment ∧ c.char ≠ endMark then toNextToken flow allowed true rest
      else if c.char = ' ' ∨ (c.char = '\t' ∧ (flow ∨ ¬ allowed)) then
        toNextToken flow allowed false rest
      else if c.char = '#' then toNextToken flow allowed true rest
      else if c.char = byteOrderMark ∧ c.column = 0 then toNextToken flow allowed false rest
      else (c :: rest, allowed)

/-- A key must end on the line on which it began, and within 1024 characters. -/
def expired (site : Sited) (candidate : KeyCandidate) : Bool :=
  candidate.site.line < site.line ∨ candidate.site.index + 1024 < site.index

/-- A candidate as it stands at a place: none if it can no longer be a key, which must not happen to
one that is required. -/
def expire (site : Sited) : Option KeyCandidate → Option (Option KeyCandidate)
  | none => some none
  | some k =>
      if expired site k then (if k.required then none else some none)
      else some (some k)

/-- Drops the candidates that can no longer be keys; none of them may be required. -/
def expireCandidates (s : Lexer) : Option Lexer := do
  let candidates ← s.candidates.mapM (expire s.source.site)
  return s.withCandidates candidates

/-- Drops the innermost candidate, which must not be required. -/
def dropCandidate (s : Lexer) : Option Lexer :=
  match s.candidates with
  | [] => some s
  | some k :: rest => if k.required then none else some (s.withCandidates (none :: rest))
  | none :: _ => some s

/-- Notes that the next token may begin a simple key. -/
def noteCandidate (s : Lexer) : Option Lexer :=
  if s.keyAllowed then do
    let required := ¬ s.inFlow ∧ s.indent = s.column
    let s' ← s.dropCandidate
    return s'.withCandidates
      (some ⟨s.tokens.size, s.source.site, required⟩ :: s'.candidates.drop 1)
  else some s

/-- Opens a block at a column that is deeper than the current block; the token goes to a place
among the tokens, or to their end. -/
def openBlock (s : Lexer) (column : Nat) (place : Nat) (token : Token) : Lexer :=
  if ¬ s.inFlow ∧ s.indent < column then
    ⟨s.source, s.tokens.insertIdxIfInBounds place token, column, s.indent :: s.indents,
      s.candidates, s.keyAllowed⟩
  else s

/-- Closes the blocks that are deeper than a column. -/
def closeBlocks (column : Int) (tokens : Array Token) (indent : Int) :
    List Int → Array Token × Int × List Int
  | [] => (tokens, indent, [])
  | outer :: more =>
      if column < indent then closeBlocks column (tokens.push .blockEnd) outer more
      else (tokens, indent, outer :: more)

/-- Closes the blocks that are deeper than a column; inside brackets there are none. -/
def unindent (s : Lexer) (column : Int) : Lexer :=
  if s.inFlow then s
  else
    let (tokens, indent, indents) := closeBlocks column s.tokens s.indent s.indents
    ⟨s.source, tokens, indent, indents, s.candidates, s.keyAllowed⟩

/-- The mark of a document's start or end. -/
def documentMark (s : Lexer) (token : Token) : Option Lexer := do
  let s ← (s.unindent (-1)).dropCandidate
  return ((s.allowKey false).pass 3).emit token

def openFlow (s : Lexer) (token : Token) : Option Lexer := do
  let s ← s.noteCandidate
  return (((s.withCandidates (none :: s.candidates)).allowKey true).pass 1).emit token

def closeFlow (s : Lexer) (token : Token) : Option Lexer := do
  let s ← s.dropCandidate
  let s := if s.inFlow then s.withCandidates (s.candidates.drop 1) else s
  return ((s.allowKey false).pass 1).emit token

/-- A hyphen in front of an item of a block sequence. -/
def blockEntry (s : Lexer) : Option Lexer := do
  let s ←
    if s.inFlow then some s
    else if s.keyAllowed then some (s.openBlock s.column s.tokens.size .blockSequenceStart)
    else none
  let s ← s.dropCandidate
  return ((s.allowKey true).pass 1).emit .blockEntry

/-- A question mark in front of a key. -/
def explicitKey (s : Lexer) : Option Lexer := do
  let s ←
    if s.inFlow then some s
    else if s.keyAllowed then some (s.openBlock s.column s.tokens.size .blockMappingStart)
    else none
  let s ← s.dropCandidate
  return ((s.allowKey (!s.inFlow)).pass 1).emit .key

/-- A colon in front of a value.  A candidate turns out to be the key. -/
def valueMark (s : Lexer) : Option Lexer :=
  match s.candidates with
  | some k :: more =>
      let keyed : Lexer :=
        ⟨s.source, s.tokens.insertIdxIfInBounds k.token .key, s.indent, s.indents, none :: more,
          false⟩
      some (((keyed.openBlock k.site.column k.token .blockMappingStart).pass 1).emit .value)
  | _ =>
      if s.inFlow then some (((s.allowKey false).pass 1).emit .value)
      else if s.keyAllowed then
        let s := s.openBlock s.column s.tokens.size .blockMappingStart
        some (((s.allowKey true).pass 1).emit .value)
      else none

/-- A token of which nothing but its text is to be found out, and which may begin a key. -/
def node (s : Lexer) (scan : Source → Option (Token × Source)) : Option Lexer := do
  let s ← s.noteCandidate
  let (token, rest) ← scan s.source
  return ((s.allowKey false).moveTo rest).emit token

def blockScalar (s : Lexer) (folded : Bool) : Option Lexer := do
  let s ← s.dropCandidate
  let (text, rest) ← scanBlock folded s.indent (s.source.drop 1)
  let style := if folded then ScalarStyle.folded else ScalarStyle.literal
  return ((s.allowKey true).moveTo rest).emit (.scalar text style)

def quotedScalar (s : Lexer) (single : Bool) : Option Lexer :=
  s.node fun source =>
    (scanQuoted single [] .content (source.drop 1)).map fun (text, rest) =>
      (.scalar text .quoted, rest)

def plainScalar (s : Lexer) : Option Lexer := do
  let s ← s.noteCandidate
  let plain ← scanPlain s.inFlow (s.indent + 1) [] Gap.empty s.source
  return ((s.allowKey plain.atLineStart).moveTo plain.rest).emit (.scalar plain.text .plain)

def isIndicator (c : Char) : Bool :=
  isBlankOrEnd c ∨ c ∈ ['-', '?', ':', ',', '[', ']', '\x7b', '\x7d', '#', '&', '*', '!', '|', '>',
    '\'', '"', '%', '@', '\x60']

/-- Passes what stands between tokens.  Candidates and blocks may end there. -/
def settle (s : Lexer) : Option Lexer := do
  let (source, allowed) := toNextToken s.inFlow s.keyAllowed false s.source
  let s ← expireCandidates ((s.moveTo source).allowKey allowed)
  return s.unindent s.column

/-- Reads the token at the head; all tokens at the end. -/
def readToken (s : Lexer) : Option (Array Token ⊕ Lexer) := do
  let c := s.source.peek
  let next := s.source.peekAt 1
  if c = endMark then
    let s ← (s.unindent (-1)).dropCandidate
    return .inl s.tokens
  else if s.column = 0 ∧ c = '%' then
    let s ← (s.unindent (-1)).dropCandidate
    let (token, rest) ← scanDirective (s.source.drop 1)
    return .inr (((s.allowKey false).moveTo rest).emit token)
  else if s.source.atMarker '-' then .inr <$> s.documentMark .documentStart
  else if s.source.atMarker '.' then .inr <$> s.documentMark .documentEnd
  else if c = '[' then .inr <$> s.openFlow .flowSequenceStart
  else if c = '\x7b' then .inr <$> s.openFlow .flowMappingStart
  else if c = ']' then .inr <$> s.closeFlow .flowSequenceEnd
  else if c = '\x7d' then .inr <$> s.closeFlow .flowMappingEnd
  else if c = ',' then
    let s ← s.dropCandidate
    return .inr (((s.allowKey true).pass 1).emit .flowEntry)
  else if c = '-' ∧ isBlankOrEnd next then .inr <$> s.blockEntry
  else if c = '?' ∧ (s.inFlow ∨ isBlankOrEnd next) then .inr <$> s.explicitKey
  else if c = ':' ∧ (s.inFlow ∨ isBlankOrEnd next) then .inr <$> s.valueMark
  else if c = '*' then
    .inr <$> s.node fun source =>
      (scanName (source.drop 1)).map fun (name, rest) => (.alias name, rest)
  else if c = '&' then
    .inr <$> s.node fun source =>
      (scanName (source.drop 1)).map fun (name, rest) => (.anchor name, rest)
  else if c = '!' then .inr <$> s.node (scanTag s.inFlow)
  else if c = '|' ∧ ¬ s.inFlow then .inr <$> s.blockScalar false
  else if c = '>' ∧ ¬ s.inFlow then .inr <$> s.blockScalar true
  else if c = '\'' then .inr <$> s.quotedScalar true
  else if c = '"' then .inr <$> s.quotedScalar false
  else if ¬ isIndicator c ∨ (c = '-' ∧ ¬ isBlank next) ∨
      (¬ s.inFlow ∧ (c = '?' ∨ c = ':') ∧ ¬ isBlankOrEnd next) then
    .inr <$> s.plainScalar
  else none

/-- Reads one token, or several where indentation ends; all tokens at the end. -/
def step (s : Lexer) : Option (Array Token ⊕ Lexer) :=
  s.settle.bind readToken

/-- Reads tokens until the end of the stream, `fuel` of them at most. -/
def run : (fuel : Nat) → Lexer → Option (Array Token)
  | 0, _ => none
  | fuel + 1, s =>
      match s.step with
      | none => none
      | some (.inl tokens) => some tokens
      | some (.inr s) => run fuel s

end Lexer

def Token.ofSource? (source : Source) : Option (List Token) :=
  -- every token takes a character, and the end takes one more step
  (Lexer.run (source.length + 1) (Lexer.initial source)).map Array.toList

end LogForwarding.Yaml
