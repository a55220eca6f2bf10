import CallRedirect.Json.Error
import CallRedirect.Text.Hex

/-!
# Words and strings of JSON

A reading step takes a text and gives a value together with what is left of the
text.  The steps here read blanks, the fixed words and strings.  A string is
read up to its closing quote, which is why its steps start behind the opening
one.
-/

namespace CallRedirect.Json

/-- A reading step: it uses up some of the text and gives a value, or fails. -/
abbrev Read := StateT (List Char) (Except ReadError)

/-- Whether a character may stand between the parts of a JSON text. -/
def isBlank (c : Char) : Bool := c = ' ' || c = '\n' || c = '\t' || c = '\r'

namespace Read

/-- Fail. -/
def fail {α : Type} (e : ReadError) : Read α := fun _ => .error e

/-- The first character that is not blank, left unread; the blanks are used up. -/
def peek? : Read (Option Char) := fun text =>
  let rest := text.dropWhile isBlank
  .ok (rest.head?, rest)

/-- Use up one character. -/
def advance : Read Unit := modify (·.drop 1)

/-- Read the given characters. -/
def word : List Char → Read Unit
  | [] => return ()
  | expected :: others => fun text =>
      match text with
      | [] => .error .endInValue
      | c :: rest => if c = expected then word others rest else .error .expectedWord

end Read

/-- Read four hexadecimal digits.  With fewer than four bytes left the text has
ended, whatever stands there. -/
def readHex (text : List Char) : Except ReadError (Nat × List Char) :=
  let digits := text.take 4
  match digits.mapM hexDigit? with
  | some values =>
      if values.length = 4 then .ok (values.foldl (fun n d => 16 * n + d) 0, text.drop 4)
      else .error .endInString
  | none =>
      if (String.ofList digits).utf8ByteSize < 4 then .error .endInString else .error .invalidEscape

/-- Read the second half of a surrogate pair, given the first. -/
def readLowSurrogate (high : Nat) : List Char → Except ReadError (Char × List Char)
  | '\\' :: 'u' :: text => do
      let (low, rest) ← readHex text
      if low < 0xdc00 ∨ 0xdfff < low then throw .loneSurrogate
      return (Char.ofNat (0x10000 + (high - 0xd800) * 0x400 + (low - 0xdc00)), rest)
  | ['\\'] => .error .endInString
  | [] => .error .endInString
  | _ => .error .unpairedSurrogate

/-- Read what follows the backslash and the `u` of an escape. -/
def readUnicode (text : List Char) : Except ReadError (Char × List Char) := do
  let (unit, rest) ← readHex text
  if 0xdc00 ≤ unit ∧ unit ≤ 0xdfff then throw .loneSurrogate
  if 0xd800 ≤ unit ∧ unit ≤ 0xdbff then readLowSurrogate unit rest
  else return (Char.ofNat unit, rest)

/-- The character that a letter behind a backslash stands for. -/
def shortEscape? : Char → Option Char
  | '"' => some '"'
  | '\\' => some '\\'
  | '/' => some '/'
  | 'b' => some (Char.ofNat 8)
  | 'f' => some (Char.ofNat 12)
  | 'n' => some '\n'
  | 'r' => some '\r'
  | 't' => some '\t'
  | _ => none

/-- Read what follows the backslash of an escape. -/
def readEscape : List Char → Except ReadError (Char × List Char)
  | [] => .error .endInString
  | 'u' :: text => readUnicode text
  | c :: text =>
      match shortEscape? c with
      | some decoded => .ok (decoded, text)
      | none => .error .invalidEscape

/-- Read the characters of a string up to and with its closing quote, with the
rule for what follows a backslash; at most `fuel` characters are read. -/
def readCharacters (escape : List Char → Except ReadError (Char × List Char)) :
    Nat → List Char → Except ReadError (List Char × List Char)
  | 0, _ => .error .endInString
  | _ + 1, [] => .error .endInString
  | fuel + 1, c :: text =>
    if c = '"' then .ok ([], text)
    else if c = '\\' then do
      let (decoded, rest) ← escape text
      let (others, after) ← readCharacters escape fuel rest
      return (decoded :: others, after)
    else if c.toNat < 0x20 then .error .controlCharacter
    else do
      let (others, after) ← readCharacters escape fuel text
      return (c :: others, after)

/-- Read a string behind its opening quote. -/
def Read.stringBody : Read String := fun text => do
  let (characters, rest) ← readCharacters readEscape (text.length + 1) text
  return (String.ofList characters, rest)

end CallRedirect.Json
