import LogForwarding.Json.Basic

/-!
The compact text of a JSON value: no blanks, members in key order, only quotes, backslashes and
control characters escaped.
-/

namespace LogForwarding.Json

/-- The lower-case hexadecimal digit of a number below sixteen. -/
def hexDigit (n : Nat) : Char :=
  Nat.digitChar (n % 16)

def escapedChar (c : Char) : List Char :=
  if c = '"' then ['\\', '"']
  else if c = '\\' then ['\\', '\\']
  else if c = '\x08' then ['\\', 'b']
  else if c = '\x0c' then ['\\', 'f']
  else if c = '\n' then ['\\', 'n']
  else if c = '\r' then ['\\', 'r']
  else if c = '\t' then ['\\', 't']
  else if c.toNat < 0x20 then
    ['\\', 'u', '0', '0', hexDigit (c.toNat / 16), hexDigit c.toNat]
  else [c]

def quotedText (text : String) : String :=
  String.ofList ('"' :: text.toList.flatMap escapedChar ++ ['"'])

mutual

def print : Json → String
  | .null => "null"
  | .bool value => if value then "true" else "false"
  | .int value => toString value
  | .float value => if value.isFinite then value.toText else "null"
  | .str value => quotedText value
  | .arr [] => "[]"
  | .arr (item :: rest) => "[" ++ print item ++ printItems rest
  | .obj [] => "\x7b\x7d"
  | .obj ((key, member) :: rest) =>
      "\x7b" ++ quotedText key ++ ":" ++ print member ++ printMembers rest

/-- The items after the first one and the closing bracket. -/
def printItems : List Json → String
  | [] => "]"
  | item :: rest => "," ++ print item ++ printItems rest

/-- The members after the first one and the closing brace. -/
def printMembers : List (String × Json) → String
  | [] => "\x7d"
  | (key, member) :: rest => "," ++ quotedText key ++ ":" ++ print member ++ printMembers rest

end

theorem toList_quotedText (text : String) :
    (quotedText text).toList = '"' :: text.toList.flatMap escapedChar ++ ['"'] :=
  String.toList_ofList

theorem toList_print_arr (item : Json) (items : List Json) :
    (print (.arr (item :: items))).toList =
      '[' :: (item.print.toList ++ (printItems items).toList) := by
  simp [print]

theorem toList_print_obj (key : String) (member : Json) (members : List (String × Json)) :
    (print (.obj ((key, member) :: members))).toList =
      '\x7b' :: ((quotedText key).toList ++
        ':' :: (member.print.toList ++ (printMembers members).toList)) := by
  simp [print]

theorem toList_printItems_nil : (printItems []).toList = [']'] := rfl

theorem toList_printItems_cons (item : Json) (items : List Json) :
    (printItems (item :: items)).toList =
      ',' :: (item.print.toList ++ (printItems items).toList) := by
  simp [printItems]

theorem toList_printMembers_nil : (printMembers []).toList = ['\x7d'] := rfl

theorem toList_printMembers_cons (key : String) (member : Json)
    (members : List (String × Json)) :
    (printMembers ((key, member) :: members)).toList =
      ',' :: ((quotedText key).toList ++
        ':' :: (member.print.toList ++ (printMembers members).toList)) := by
  simp [printMembers]

end LogForwarding.Json
