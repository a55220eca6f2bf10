import CallRedirect.Json.Value

/-!
# Printing JSON

A value is printed on one line without blanks, or laid out over lines with two
blanks for each level.  In strings the quote, the backslash and the control
characters are escaped; all other characters stand for themselves.
-/

namespace CallRedirect.Json

/-- A character as written in a string. -/
def encodeChar (c : Char) : List Char :=
  if c = '"' then ['\\', '"']
  else if c = '\\' then ['\\', '\\']
  else if c = Char.ofNat 8 then ['\\', 'b']
  else if c = '\t' then ['\\', 't']
  else if c = '\n' then ['\\', 'n']
  else if c = Char.ofNat 12 then ['\\', 'f']
  else if c = '\r' then ['\\', 'r']
  else if c.toNat < 0x20 then
    ['\\', 'u', '0', '0', Nat.digitChar (c.toNat / 16), Nat.digitChar (c.toNat % 16)]
  else [c]

/-- A string with its quotes. -/
def stringText (text : String) : String :=
  String.ofList ('"' :: text.toList.flatMap encodeChar ++ ['"'])

/-- The two brackets of an object. -/
def braces (content : String) : String := "\x7b" ++ content ++ "\x7d"

namespace Value

mutual

/-- The text of a value on one line. -/
def compact : Value → String
  | null => "null"
  | bool value => if value then "true" else "false"
  | number value => value.text
  | string value => stringText value
  | array items => "[" ++ ",".intercalate (compactItems items) ++ "]"
  | object members => braces (",".intercalate (compactMembers members))

/-- The texts of the items of an array. -/
def compactItems : List Value → List String
  | [] => []
  | item :: items => item.compact :: compactItems items

/-- The texts of the members of an object. -/
def compactMembers : List (String × Value) → List String
  | [] => []
  | (key, value) :: members => (stringText key ++ ":" ++ value.compact) :: compactMembers members

end

/-- The start of a line at a depth. -/
def lineStart (depth : Nat) : String :=
  String.ofList ('\n' :: List.replicate (2 * depth) ' ')

/-- Texts between brackets, each on a line of its own one level deeper. -/
def block (opening closing : String) (depth : Nat) (texts : List String) : String :=
  if texts.isEmpty then opening ++ closing
  else opening ++ lineStart (depth + 1) ++
    ("," ++ lineStart (depth + 1)).intercalate texts ++ lineStart depth ++ closing

mutual

/-- The text of a value over lines; `depth` is the level of its first line. -/
def prettyAt (depth : Nat) : Value → String
  | null => "null"
  | bool value => if value then "true" else "false"
  | number value => value.text
  | string value => stringText value
  | array items => block "[" "]" depth (prettyItems (depth + 1) items)
  | object members => block "\x7b" "\x7d" depth (prettyMembers (depth + 1) members)

/-- The texts of the items of an array over lines. -/
def prettyItems (depth : Nat) : List Value → List String
  | [] => []
  | item :: items => item.prettyAt depth :: prettyItems depth items

/-- The texts of the members of an object over lines. -/
def prettyMembers (depth : Nat) : List (String × Value) → List String
  | [] => []
  | (key, value) :: members =>
      (stringText key ++ ": " ++ value.prettyAt depth) :: prettyMembers depth members

end

/-- The text of a value over lines. -/
def pretty (value : Value) : String := value.prettyAt 0

end Value

end CallRedirect.Json
