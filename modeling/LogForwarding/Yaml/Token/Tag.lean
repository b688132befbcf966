import LogForwarding.Yaml.Token.Basic

/-!
Names of anchors, tags and directives.
-/

namespace LogForwarding.Yaml

/-- The characters of a part of a stream. -/
def Source.text (source : Source) : String :=
  String.ofList (source.map Sited.char)

/-- The characters at the head that satisfy a test, and the rest. -/
def Source.split (source : Source) (test : Char → Bool) : String × Source :=
  (Source.text (source.takeWhile fun c => test c.char), source.dropWhile fun c => test c.char)

/-- An anchor or alias name behind its indicator. -/
def scanName (source : Source) : Option (String × Source) :=
  let (name, rest) := source.split isNameChar
  let next := rest.peek
  let ends := isBlankOrEnd next ∨ next ∈ ['?', ':', ',', ']', '\x7d', '%', '@', '\x60']
  if name ≠ "" ∧ ends then some (name, rest) else none

/-- A tag handle: `!`, `!!` or `!name!`.  In a directive the closing mark is required. -/
private def scanHandle (directive : Bool) (source : Source) : Option (String × Source) :=
  if source.peek ≠ '!' then none
  else
    let (name, rest) := Source.split (source.drop 1) isNameChar
    if rest.peek = '!' then some ("!" ++ name ++ "!", rest.drop 1)
    else if directive ∧ name ≠ "" then none
    else some ("!" ++ name, rest)

/-- A character of a tag; brackets and commas stand only in verbatim tags and directives. -/
private def isUriChar (verbatim : Bool) (c : Char) : Bool :=
  isNameChar c ∨ c ∈ [';', '/', '?', ':', '@', '&', '=', '+', '$', '.', '%', '!', '~', '*', '\'',
    '(', ')'] ∨ (verbatim ∧ c ∈ [',', '[', ']'])

/-- The bytes that a text with percent escapes spells. -/
private def unescapeUri : List Char → Option Bytes
  | [] => some []
  | '%' :: high :: low :: rest => do
      let byte := (← Bytes.hexDigitValue high) * 16 + (← Bytes.hexDigitValue low)
      return UInt8.ofNat byte :: (← unescapeUri rest)
  | '%' :: _ => none
  | c :: rest => (unescapeUri rest).map (Bytes.ofText (String.singleton c) ++ ·)

/-- The rest of a tag, which may be empty only behind a handle. -/
private def scanUri (verbatim : Bool) (handle : String) (source : Source) :
    Option (String × Source) := do
  let (raw, rest) := source.split (isUriChar verbatim)
  if raw = "" ∧ handle = "" then none
  else
    let text ← (unescapeUri raw.toList).bind Bytes.toText?
    return (String.ofList (handle.toList.drop 1) ++ text, rest)

/-- A tag as a handle and a suffix: `!<verbatim>`, `!handle!suffix` or `!suffix`. -/
def scanTag (flow : Bool) (source : Source) : Option (Token × Source) := do
  let (token, rest) ←
    if source.peekAt 1 = '<' then do
      let (suffix, rest) ← scanUri true "" (source.drop 2)
      if rest.peek = '>' then some (Token.tag "" suffix, rest.drop 1) else none
    else do
      let (handle, rest) ← scanHandle false source
      if handle.length > 1 ∧ handle.toList.getLast? = some '!' then
        let (suffix, rest) ← scanUri false "" rest
        some (Token.tag handle suffix, rest)
      else
        let (suffix, rest) ← scanUri false handle rest
        if suffix = "" then some (Token.tag "" "!", rest) else some (Token.tag "!" suffix, rest)
  if isBlankOrEnd (Source.peek rest) ∨ (flow ∧ Source.peek rest = ',') then some (token, rest)
  else none

private def scanNumber (source : Source) : Option (Nat × Source) :=
  let (digits, rest) := source.split Char.isDigit
  if digits = "" ∨ digits.length > 9 then none
  else some (digits.toList.foldl (fun n c => n * 10 + (c.toNat - '0'.toNat)) 0, rest)

private def dropBlanks (source : Source) : Source :=
  source.dropWhile fun c => isBlank c.char

/-- A directive behind its percent sign, with the rest of its line. -/
def scanDirective (source : Source) : Option (Token × Source) := do
  let (name, rest) := source.split isNameChar
  if name = "" ∨ ¬ isBlankOrEnd rest.peek then none
  else
    let (token, rest) ←
      if name = "YAML" then do
        let (major, rest) ← scanNumber (dropBlanks rest)
        if Source.peek rest ≠ '.' then none
        else
          let (minor, rest) ← scanNumber (rest.drop 1)
          some (Token.version major minor, rest)
      else if name = "TAG" then do
        let (handle, rest) ← scanHandle true (dropBlanks rest)
        if ¬ isBlank (Source.peek rest) then none
        else
          let (uri, rest) ← scanUri true "" (dropBlanks rest)
          if isBlankOrEnd (Source.peek rest) then some (Token.tagHandle handle uri, rest) else none
      else none
    return (token, ← Source.finishLine? rest)

end LogForwarding.Yaml
