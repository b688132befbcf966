/-!
String literals of the forwarder's configuration language.  A literal ends at its first quote
without a backslash, so quotes and backslashes are escaped; line breaks and tabs have escapes of
their own.
-/

namespace LogForwarding.Forwarder

def escapedChar (c : Char) : List Char :=
  if c = '\\' then ['\\', '\\']
  else if c = '"' then ['\\', '"']
  else if c = '\n' then ['\\', 'n']
  else if c = '\r' then ['\\', 'r']
  else if c = '\t' then ['\\', 't']
  else [c]

/-- A text between the quotes of a literal. -/
def literalBody (text : String) : String :=
  String.ofList (text.toList.flatMap escapedChar)

def literal (text : String) : String :=
  String.ofList ('"' :: text.toList.flatMap escapedChar ++ ['"'])

def literalList (texts : List String) : String :=
  "[" ++ ",".intercalate (texts.map literal) ++ "]"

end LogForwarding.Forwarder
