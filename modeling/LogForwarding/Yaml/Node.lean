import LogForwarding.Yaml.Token.Lexer
import LogForwarding.Dictionary

/-!
The tree of a YAML document.  A stream holds exactly one document, or nothing at all.  Aliases are
replaced by what they name; how deep the tree is and how often aliases are followed is bounded.
-/

namespace LogForwarding.Yaml

/-- A node of a document with its resolved tag.  The keys of a mapping may repeat. -/
inductive Node where
  | scalar (text : String) (style : ScalarStyle) (tag : Option String)
  | sequence (items : List Node) (tag : Option String)
  | mapping (entries : List (Node × Node)) (tag : Option String)
deriving Repr, Inhabited

/-- A node with what its bounds are checked against. -/
structure Measured where
  node : Node
  /-- How many collections are nested. -/
  depth : Nat
  /-- How many aliases are followed when the whole node is read. -/
  follows : Nat
  /-- How many scalars, aliases and ends of collections are written. -/
  events : Nat
deriving Inhabited

/-- Reads a document from tokens. -/
structure Composer where
  tokens : List Token
  /-- The tag handles that directives declare. -/
  handles : List (String × String)
  /-- The named nodes, latest first; a node that is not complete yet has a name but no value. -/
  anchors : List (String × Option Measured)

/-- A step of reading, which may find the document malformed. -/
abbrev Compose := StateT Composer Option

namespace Composer

def peek : Compose (Option Token) := do
  return (← get).tokens.head?

def pass : Compose Unit :=
  modify fun s => ⟨s.tokens.drop 1, s.handles, s.anchors⟩

def malformed {α : Type} : Compose α :=
  fun _ => none

/-- Passes the next token if it is the given one. -/
def accept (token : Token) : Compose Bool := do
  if (← peek) = some token then
    pass
    return true
  else return false

def define (anchor : Option String) (value : Option Measured) : Compose Unit :=
  match anchor with
  | none => pure ()
  | some name => modify fun s => ⟨s.tokens, s.handles, (name, value) :: s.anchors⟩

def emptyScalar (tag : Option String) : Measured :=
  ⟨.scalar "" .plain tag, 0, 0, 1⟩

def sequenceOf (items : List Measured) (tag : Option String) : Measured :=
  ⟨.sequence (items.map Measured.node) tag,
    1 + items.foldl (fun d m => max d m.depth) 0,
    items.foldl (fun n m => n + m.follows) 0,
    2 + items.foldl (fun n m => n + m.events) 0⟩

def mappingOf (entries : List (Measured × Measured)) (tag : Option String) : Measured :=
  ⟨.mapping (entries.map fun e => (e.1.node, e.2.node)) tag,
    1 + entries.foldl (fun d e => max d (max e.1.depth e.2.depth)) 0,
    entries.foldl (fun n e => n + e.1.follows + e.2.follows) 0,
    2 + entries.foldl (fun n e => n + e.1.events + e.2.events) 0⟩

/-- The tag that a handle and a suffix spell. -/
def resolveTag (handle suffix : String) : Compose String := do
  if handle = "" then return suffix
  else
    match (← get).handles.find? fun entry => entry.1 = handle with
    | some (_, uri) => return uri ++ suffix
    | none => malformed

/-- The anchor and the tag in front of a node, in either order. -/
def properties : Compose (Option String × Option String) := do
  match ← peek with
  | some (.anchor name) =>
      pass
      match ← peek with
      | some (.tag handle suffix) =>
          pass
          return (some name, some (← resolveTag handle suffix))
      | _ => return (some name, none)
  | some (.tag handle suffix) =>
      pass
      match ← peek with
      | some (.anchor name) =>
          pass
          return (some name, some (← resolveTag handle suffix))
      | _ => return (none, some (← resolveTag handle suffix))
  | _ => return (none, none)

def followed (name : String) : Compose Measured := do
  match (← get).anchors.find? fun entry => entry.1 = name with
  | some (_, some target) => return ⟨target.node, target.depth, target.follows + 1, 1⟩
  | _ => malformed

mutual

/-- A node.  Outside of brackets it may be a block; a block sequence that is the value of a key may
stand without indentation of its own. -/
def composeNode (block indentless : Bool) : (fuel : Nat) → Compose Measured
  | 0 => malformed
  | fuel + 1 => do
      match ← peek with
      | some (.alias name) =>
          pass
          followed name
      | _ =>
          let (anchor, tag) ← properties
          define anchor none
          let built ← composeContent block indentless (anchor.isSome ∨ tag.isSome) tag fuel
          define anchor (some built)
          return built

def composeContent (block indentless optional : Bool) (tag : Option String) :
    (fuel : Nat) → Compose Measured
  | 0 => malformed
  | fuel + 1 => do
      match ← peek with
      | some (.scalar text style) =>
          pass
          return ⟨.scalar text style tag, 0, 0, 1⟩
      | some .flowSequenceStart =>
          pass
          return sequenceOf (← flowItems true fuel) tag
      | some .flowMappingStart =>
          pass
          return mappingOf (← flowEntries true fuel) tag
      | some .blockSequenceStart =>
          if block then
            pass
            return sequenceOf (← blockItems fuel) tag
          else if optional then return emptyScalar tag
          else malformed
      | some .blockMappingStart =>
          if block then
            pass
            return mappingOf (← blockEntries fuel) tag
          else if optional then return emptyScalar tag
          else malformed
      | some .blockEntry =>
          if indentless then return sequenceOf (← indentlessItems fuel) tag
          else if optional then return emptyScalar tag
          else malformed
      | _ => if optional then return emptyScalar tag else malformed

/-- The items of a block sequence up to its end. -/
def blockItems : (fuel : Nat) → Compose (List Measured)
  | 0 => malformed
  | fuel + 1 => do
      if ← accept .blockEntry then
        let item ←
          match ← peek with
          | some .blockEntry | some .blockEnd => pure (emptyScalar none)
          | _ => composeNode true false fuel
        return item :: (← blockItems fuel)
      else if ← accept .blockEnd then return []
      else malformed

/-- The items of a block sequence without indentation of its own. -/
def indentlessItems : (fuel : Nat) → Compose (List Measured)
  | 0 => malformed
  | fuel + 1 => do
      if ← accept .blockEntry then
        let item ←
          match ← peek with
          | some .blockEntry | some .key | some .value | some .blockEnd => pure (emptyScalar none)
          | _ => composeNode true false fuel
        return item :: (← indentlessItems fuel)
      else return []

/-- A key or a value of a block mapping, which may be written as nothing. -/
def blockPart : (fuel : Nat) → Compose Measured
  | 0 => malformed
  | fuel + 1 => do
      match ← peek with
      | some .key | some .value | some .blockEnd => return emptyScalar none
      | _ => composeNode true true fuel

/-- The entries of a block mapping up to its end. -/
def blockEntries : (fuel : Nat) → Compose (List (Measured × Measured))
  | 0 => malformed
  | fuel + 1 => do
      if ← accept .key then
        let key ← blockPart fuel
        let value ← if ← accept .value then blockPart fuel else pure (emptyScalar none)
        return (key, value) :: (← blockEntries fuel)
      else if ← accept .blockEnd then return []
      else malformed

/-- A pair that is an item of a sequence in brackets, behind its key mark. -/
def flowPair : (fuel : Nat) → Compose Measured
  | 0 => malformed
  | fuel + 1 => do
      let key ←
        match ← peek with
        | some .value | some .flowEntry | some .flowSequenceEnd =>
            -- a pair without a key swallows the mark behind it
            pass
            pure (emptyScalar none)
        | _ => composeNode false false fuel
      let value ←
        if ← accept .value then
          match ← peek with
          | some .flowEntry | some .flowSequenceEnd => pure (emptyScalar none)
          | _ => composeNode false false fuel
        else pure (emptyScalar none)
      return mappingOf [(key, value)] none

/-- The items of a sequence in brackets up to its end. -/
def flowItems (first : Bool) : (fuel : Nat) → Compose (List Measured)
  | 0 => malformed
  | fuel + 1 => do
      if ← accept .flowSequenceEnd then return []
      else
        let separated ← if first then pure true else accept .flowEntry
        if ¬ separated then malformed
        else if ← accept .key then
          let item ← flowPair fuel
          return item :: (← flowItems false fuel)
        else if ← accept .flowSequenceEnd then return []
        else
          let item ← composeNode false false fuel
          return item :: (← flowItems false fuel)

/-- The entries of a mapping in braces up to its end. -/
def flowEntries (first : Bool) : (fuel : Nat) → Compose (List (Measured × Measured))
  | 0 => malformed
  | fuel + 1 => do
      if ← accept .flowMappingEnd then return []
      else
        let separated ← if first then pure true else accept .flowEntry
        if ¬ separated then malformed
        else if ← accept .key then
          let key ←
            match ← peek with
            | some .value | some .flowEntry | some .flowMappingEnd => pure (emptyScalar none)
            | _ => composeNode false false fuel
          let value ←
            if ← accept .value then
              match ← peek with
              | some .flowEntry | some .flowMappingEnd => pure (emptyScalar none)
              | _ => composeNode false false fuel
            else pure (emptyScalar none)
          return (key, value) :: (← flowEntries false fuel)
        else if ← accept .flowMappingEnd then return []
        else
          let key ← composeNode false false fuel
          return (key, emptyScalar none) :: (← flowEntries false fuel)

end

/-- The directives in front of a document: one version at most, 1.1 or 1.2, and handles that differ
from one another. -/
def directives (versioned : Bool) : (fuel : Nat) → Compose Unit
  | 0 => malformed
  | fuel + 1 => do
      match ← peek with
      | some (.version major minor) =>
          if versioned ∨ major ≠ 1 ∨ (minor ≠ 1 ∧ minor ≠ 2) then malformed
          else
            pass
            directives true fuel
      | some (.tagHandle handle uri) =>
          pass
          if (← get).handles.any fun entry => entry.1 = handle then malformed
          else
            modify fun s => ⟨s.tokens, (handle, uri) :: s.handles, s.anchors⟩
            directives versioned fuel
      | _ => pure ()

def standardHandles : Compose Unit :=
  modify fun s => ⟨s.tokens, s.handles ++ [("!", "!"), ("!!", "tag:yaml.org,2002:")], s.anchors⟩

/-- The only document of a stream; `none` in a stream without one. -/
def document : Compose (Option Measured) := do
  let fuel := 4 * (← get).tokens.length + 4
  match ← peek with
  | none => return none
  | some token =>
      let explicit := match token with
        | .version .. | .tagHandle .. | .documentStart => true
        | _ => false
      let root ←
        if explicit then
          directives false fuel
          standardHandles
          if ← accept .documentStart then
            match ← peek with
            | none | some (.version ..) | some (.tagHandle ..) | some .documentStart
            | some .documentEnd => pure (emptyScalar none)
            | _ => composeNode true false fuel
          else malformed
        else
          standardHandles
          composeNode true false fuel
      let rest := (← get).tokens.dropWhile (· = .documentEnd)
      if rest = [] then return some root else malformed

end Composer

/-- The deepest nesting of collections that is read. -/
def maxDepth : Nat := 128

/-- Aliases may be followed so many times as often as there are nodes. -/
def maxFollows : Nat := 100

/-- The document that a stream of bytes holds: `none` if it is malformed, `some none` if there is
nothing in it. -/
def Node.ofBytes? (bytes : Bytes) : Option (Option Node) := do
  let source ← Source.ofBytes? bytes
  let tokens ← Token.ofSource? source
  let (root, _) ← Composer.document.run ⟨tokens, [], []⟩
  match root with
  | none => some none
  | some root =>
      if root.depth ≤ maxDepth ∧ root.follows ≤ maxFollows * root.events then some (some root.node)
      else none

end LogForwarding.Yaml
