import CallRedirect.Json.Numeral

/-!
# Reading JSON values

A document is one value with blanks around it.  Arrays and objects nest at most
`maxNesting` deep.  Lists and members are read by general steps that take the
step for one item, so that the same rules hold for values and for records of a
known shape.
-/

namespace CallRedirect.Json

/-- How deep arrays and objects may nest. -/
def maxNesting : Nat := 127

namespace Read

/-- Go on to the next item of a list: whether there is one.  If there is none,
the closing bracket has been read. -/
def nextItem (first : Bool) : Read Bool := do
  match ← peek? with
  | none => fail .endInList
  | some ']' => do
      advance
      return false
  | some c =>
    if first then return true
    else if c = ',' then do
      advance
      match ← peek? with
      | none => fail .endInValue
      | some ']' => fail .trailingComma
      | some _ => return true
    else fail .expectedListEnd

/-- Read the items of a list that are left, at most `fuel` of them. -/
def items {α : Type} (item : Read α) (first : Bool) : Nat → Read (List α)
  | 0 => fail .endInList
  | fuel + 1 => do
      if ← nextItem first then do
        let head ← item
        let others ← items item false fuel
        return head :: others
      else return []

/-- Read a list behind its opening bracket.  Every item uses up a character, so
there are no more items than characters. -/
def list {α : Type} (item : Read α) : Read (List α) := do
  let text ← get
  items item true (text.length + 1)

/-- Go on to the next member of an object: its key, if there is one.  If there is
none, the closing brace has been read. -/
def nextKey (first : Bool) : Read (Option String) := do
  match ← peek? with
  | none => fail .endInObject
  | some '\x7d' => do
      advance
      return none
  | some ',' =>
    if first then fail .keyNotString
    else do
      advance
      match ← peek? with
      | none => fail .endInValue
      | some '"' => key
      | some '\x7d' => fail .trailingComma
      | some _ => fail .keyNotString
  | some '"' => if first then key else fail .expectedObjectEnd
  | some _ => if first then fail .keyNotString else fail .expectedObjectEnd
where
  /-- Read a key from its opening quote on. -/
  key : Read (Option String) := do
    advance
    let name ← stringBody
    return some name

/-- Read the colon behind a key. -/
def colon : Read Unit := do
  match ← peek? with
  | none => fail .endInObject
  | some ':' => advance
  | some _ => fail .expectedColon

/-- Read the members of an object that are left, at most `fuel` of them, each by
the step for its key. -/
def members {σ : Type} (member : String → σ → Read σ) (first : Bool) (state : σ) : Nat → Read σ
  | 0 => fail .endInObject
  | fuel + 1 => do
      match ← nextKey first with
      | none => return state
      | some key => do
          let state ← member key state
          members member false state fuel

/-- Read the members of an object behind its opening brace. -/
def object {σ : Type} (member : String → σ → Read σ) (start : σ) : Read σ := do
  let text ← get
  members member true start (text.length + 1)

/-- Read one member of an object of values. -/
def valueMember (value : Read Value) (key : String) (sorted : List (String × Value)) :
    Read (List (String × Value)) := do
  colon
  let content ← value
  return insertMember key content sorted

/-- Read a value, given the step for the values inside of it, if it may have any. -/
def valueWith (inner : Option (Read Value)) : Read Value := do
  match ← peek? with
  | none => fail .endInValue
  | some 'n' => do
      word ['n', 'u', 'l', 'l']
      return .null
  | some 't' => do
      word ['t', 'r', 'u', 'e']
      return .bool true
  | some 'f' => do
      word ['f', 'a', 'l', 's', 'e']
      return .bool false
  | some '"' => do
      advance
      return .string (← stringBody)
  | some '[' =>
    match inner with
    | none => fail .nestingLimit
    | some value => do
        advance
        return .array (← list value)
  | some '\x7b' =>
    match inner with
    | none => fail .nestingLimit
    | some value => do
        advance
        return .object (← object (valueMember value) [])
  | some c =>
    if c = '-' ∨ isDigit c then return .number (← number)
    else fail .expectedValue

/-- Read a value in which arrays and objects nest at most `depth` deep. -/
def value : Nat → Read Value
  | 0 => valueWith none
  | depth + 1 => valueWith (some (value depth))

end Read

/-- Read a text that holds nothing but what `step` reads. -/
def readAll {α : Type} (step : Read α) (text : String) : Except ReadError α := do
  let (content, rest) ← step text.toList
  if rest.dropWhile isBlank = [] then return content else throw .trailingCharacters

/-- Read a JSON document. -/
def Value.parse (text : String) : Except ReadError Value :=
  readAll (Read.value maxNesting) text

end CallRedirect.Json
