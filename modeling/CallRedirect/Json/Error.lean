import CallRedirect.Json.Value
import CallRedirect.Text.Quoted

/-!
# Faults of a JSON text

A text can break the grammar, and it can be good JSON of the wrong shape.
-/

namespace CallRedirect.Json

/-- What stands where something else was expected. -/
inductive Found
  | null
  | bool (value : Bool)
  | number (value : Number)
  | string (value : String)
  | array
  | object
  | unitVariant
  deriving DecidableEq, Repr

namespace Found

/-- What was found, in words. -/
def text : Found → String
  | null => "null"
  | bool value => "boolean `" ++ (if value then "true" else "false") ++ "`"
  | number (.integer value) => "integer `" ++ toString value ++ "`"
  | number value => "floating point `" ++ value.text ++ "`"
  | string value => "string " ++ Quoted.encode value
  | array => "sequence"
  | object => "map"
  | unitVariant => "unit variant"

end Found

/-- Why a JSON text is not read. -/
inductive ReadError
  | endInList
  | endInObject
  | endInString
  | endInValue
  | expectedColon
  | expectedListEnd
  | expectedObjectEnd
  | expectedWord
  | expectedValue
  | invalidEscape
  | invalidNumber
  | numberOutOfRange
  | controlCharacter
  | keyNotString
  | loneSurrogate
  | unpairedSurrogate
  | nestingLimit
  | trailingComma
  | trailingCharacters
  | wrongType (found : Found) (expected : String)
  | wrongLength (length : Nat) (expected : String)
  | unknownVariant (name : String) (known : List String)
  | missingField (name : String)
  | duplicateField (name : String)
  deriving DecidableEq, Repr

/-- The names one may choose from, in words. -/
def choiceText (names : List String) : String :=
  let quoted := names.map (fun name => "`" ++ name ++ "`")
  if names.length ≤ 2 then " or ".intercalate quoted
  else "one of " ++ ", ".intercalate quoted

/-- The text of a fault. -/
def ReadError.message : ReadError → String
  | endInList => "EOF while parsing a list"
  | endInObject => "EOF while parsing an object"
  | endInString => "EOF while parsing a string"
  | endInValue => "EOF while parsing a value"
  | expectedColon => "expected `:`"
  | expectedListEnd => "expected `,` or `]`"
  | expectedObjectEnd => "expected `,` or `\x7d`"
  | expectedWord => "expected ident"
  | expectedValue => "expected value"
  | invalidEscape => "invalid escape"
  | invalidNumber => "invalid number"
  | numberOutOfRange => "number out of range"
  | controlCharacter => "control character (\\u0000-\\u001F) found while parsing a string"
  | keyNotString => "key must be a string"
  | loneSurrogate => "lone leading surrogate in hex escape"
  | unpairedSurrogate => "unexpected end of hex escape"
  | nestingLimit => "recursion limit exceeded"
  | trailingComma => "trailing comma"
  | trailingCharacters => "trailing characters"
  | wrongType found expected => "invalid type: " ++ found.text ++ ", expected " ++ expected
  | wrongLength length expected => s!"invalid length {length}, expected " ++ expected
  | unknownVariant name known =>
      "unknown variant `" ++ name ++ "`, expected " ++ choiceText known
  | missingField name => "missing field `" ++ name ++ "`"
  | duplicateField name => "duplicate field `" ++ name ++ "`"

end CallRedirect.Json
