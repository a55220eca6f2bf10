import CallRedirect.Json.Skip

/-!
# Values of a known shape

A shape says what stands at a place of a document: a text, a list, a record or
one of several variants.  A record is an object with the record's fields as
members, in any order and among others, or an array with the fields in order.
A variant is its name alone, if it has no content, or an object with the name
as its only key.
-/

namespace CallRedirect.Json.Read

/-- Fail because of the value that comes next: it is not what was expected.  A
fault in a word, number or string goes first. -/
def mismatch {α : Type} (expected : String) : Read α := do
  match ← peek? with
  | none => fail .endInValue
  | some 'n' => do
      word ['n', 'u', 'l', 'l']
      fail (.wrongType .null expected)
  | some 't' => do
      word ['t', 'r', 'u', 'e']
      fail (.wrongType (.bool true) expected)
  | some 'f' => do
      word ['f', 'a', 'l', 's', 'e']
      fail (.wrongType (.bool false) expected)
  | some '"' => do
      advance
      fail (.wrongType (.string (← stringBody)) expected)
  | some '[' => fail (.wrongType .array expected)
  | some '\x7b' => fail (.wrongType .object expected)
  | some c =>
    if c = '-' ∨ isDigit c then do fail (.wrongType (.number (← number)) expected)
    else fail .expectedValue

/-- Read a string. -/
def string (expected : String) : Read String := do
  match ← peek? with
  | some '"' => do
      advance
      stringBody
  | _ => mismatch expected

/-- Read a text. -/
def text : Read String := string "a string"

/-- Read a value that may be null. -/
def optional {α : Type} (shape : Read α) : Read (Option α) := do
  match ← peek? with
  | some 'n' => do
      word ['n', 'u', 'l', 'l']
      return none
  | _ => return some (← shape)

/-- Read null. -/
def unit : Read Unit := do
  match ← peek? with
  | some 'n' => word ['n', 'u', 'l', 'l']
  | _ => mismatch "unit"

/-- Read a list of items of one shape. -/
def listOf {α : Type} (item : Read α) : Read (List α) := do
  match ← peek? with
  | some '[' => do
      advance
      list item
  | _ => mismatch "a sequence"

/-- A field of a record that is filled in step by step. -/
structure RecordField (δ : Type) where
  name : String
  isFilled : δ → Bool
  mayBeAbsent : Bool
  fill : δ → Read δ

/-- The shape of a record: what it is called, its fields in order, and how what
has been filled in becomes the record, which needs all fields that may not be
absent. -/
structure RecordShape (δ α : Type) where
  title : String
  fields : List (RecordField δ)
  blank : δ
  finish : δ → Option α

namespace RecordShape

variable {δ α : Type}

/-- The title of a record with its number of fields. -/
def sizeText (shape : RecordShape δ α) : String :=
  let count := shape.fields.length
  shape.title ++ " with " ++ toString count ++ (if count = 1 then " element" else " elements")

/-- The name of the first field that should be there and is not. -/
def firstMissing (shape : RecordShape δ α) (draft : δ) : String :=
  match shape.fields.find? (fun field => ! field.mayBeAbsent && ! field.isFilled draft) with
  | some field => field.name
  | none => ""

/-- Make the record of what has been filled in. -/
def conclude (shape : RecordShape δ α) (draft : δ) : Read α :=
  match shape.finish draft with
  | some record => return record
  | none => fail (.missingField (shape.firstMissing draft))

/-- Read one member of a record's object. -/
def readMember (shape : RecordShape δ α) (key : String) (draft : δ) : Read δ := do
  match shape.fields.find? (fun field => field.name = key) with
  | some field =>
    if field.isFilled draft then fail (.duplicateField key)
    else do
      colon
      field.fill draft
  | none => do
      colon
      skip
      return draft

/-- Read the fields of a record's array that are left, of which `position` have
been read. -/
def readElements (shape : RecordShape δ α) (draft : δ) (position : Nat) :
    List (RecordField δ) → Read δ
  | [] => return draft
  | field :: others => do
      if ← nextItem (position = 0) then do
        let draft ← field.fill draft
        readElements shape draft (position + 1) others
      else fail (.wrongLength position shape.sizeText)

/-- Read the closing bracket of a record's array. -/
def readEnd : Read Unit := do
  match ← peek? with
  | none => fail .endInList
  | some ']' => advance
  | some ',' => do
      advance
      match ← peek? with
      | some ']' => fail .trailingComma
      | _ => fail .trailingCharacters
  | some _ => fail .trailingCharacters

/-- Read a record. -/
def read (shape : RecordShape δ α) : Read α := do
  match ← peek? with
  | some '\x7b' => do
      advance
      let draft ← object shape.readMember shape.blank
      shape.conclude draft
  | some '[' => do
      advance
      let draft ← readElements shape shape.blank 0 shape.fields
      readEnd
      shape.conclude draft
  | _ => mismatch shape.title

end RecordShape

/-- One of several variants: its name, and how its content is read.  A variant
without content may be given by its name alone. -/
structure Variant (α : Type) where
  name : String
  alone : Option α
  content : Read α

/-- Read the name of one of the variants from its opening quote on. -/
def variantName {α : Type} (variants : List (Variant α)) : Read (Variant α) := do
  advance
  let name ← stringBody
  match variants.find? (fun variant => variant.name = name) with
  | some variant => return variant
  | none => fail (.unknownVariant name (variants.map (·.name)))

/-- Read the key that names one of the variants. -/
def variantKey {α : Type} (variants : List (Variant α)) : Read (Variant α) := do
  match ← peek? with
  | none => fail .endInObject
  | some '"' => variantName variants
  | some '\x7d' => fail .expectedValue
  | some _ => fail .keyNotString

/-- Read one of several variants. -/
def oneOf {α : Type} (variants : List (Variant α)) : Read α := do
  match ← peek? with
  | none => fail .endInValue
  | some '"' => do
      let variant ← variantName variants
      match variant.alone with
      | some value => return value
      | none => fail (.wrongType .unitVariant "struct variant")
  | some '\x7b' => do
      advance
      let variant ← variantKey variants
      colon
      let value ← variant.content
      match ← peek? with
      | none => fail .endInObject
      | some '\x7d' => do
          advance
          return value
      | some _ => fail .expectedValue
  | some _ => fail .expectedValue

end CallRedirect.Json.Read
