import LogForwarding.Text.Printable

/-!
Quoted text for messages: what is not shown as it is, is shown as an escape.
-/

namespace LogForwarding.Text

/-- The code point of a character in braces. -/
def codeEscape (c : Char) : List Char :=
  ['\\', 'u', '\x7b'] ++ Nat.toDigits 16 c.toNat ++ ['\x7d']

def shownChar (quote c : Char) : List Char :=
  if c = quote ∨ c = '\\' then ['\\', c]
  else if c = '\n' then ['\\', 'n']
  else if c = '\r' then ['\\', 'r']
  else if c = '\t' then ['\\', 't']
  else if c = '\x00' then ['\\', '0']
  else if isPrintable c then [c]
  else codeEscape c

def quoted (text : String) : String :=
  String.ofList ('"' :: text.toList.flatMap (shownChar '"') ++ ['"'])

def quotedChar (c : Char) : String :=
  String.ofList ('\'' :: shownChar '\'' c ++ ['\''])

end LogForwarding.Text
