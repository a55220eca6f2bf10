import CallRedirect.ClassFile.Constant
import CallRedirect.Text.Quoted

/-!
# Reading a class file from front to back

A class file is read in one pass.  The cursor keeps the bytes that are left and
how many were read, because errors name positions.  A number that does not fit
is reported at the position of its first byte, a byte string at the position
where it would have ended.
-/

namespace CallRedirect.ClassFile

/-- What is wrong with the layout of a class file. -/
inductive FormatError
  | notClassFile
  | shortNumber (position size : Nat)
  | shortChunk (finish size : Nat)
  | unknownTag (tag : Nat)
  | malformedText
  | missingConstant (index : Nat)
  | notText (constant : Constant)
  | unknownAttribute (name : String)
  | unknownFrame (tag : Nat)
  | unknownVerificationType (tag : Nat)
  | unknownTarget (tag : Nat)
  | unknownElement (tag : Nat)
  | trailingBytes (size position : Nat)
  deriving DecidableEq, Repr

namespace FormatError

/-- The text of an error of the reading kind `kind` with the given cause. -/
def wrapped (kind cause : String) : String :=
  "Error(Io(Custom \x7b kind: " ++ kind ++ ", error: " ++ cause ++ " \x7d))"

/-- The text of a layout error. -/
def message : FormatError → String
  | notClassFile => "Error(InvalidInput(\"Not a valid class-file\"))"
  | shortNumber position size =>
      invalidInput s!"overflow : attempt to read from {position} whereas len is {size}"
  | shortChunk finish size => invalidInput s!"Index out of bounds: {finish} of {size}"
  | unknownTag tag => invalidInput s!"unmatched tag: {tag}"
  | malformedText => wrapped "InvalidData" "Cesu8DecodingError"
  | missingConstant index => invalidData s!"element not found at index {index}"
  | notText constant => invalidData ("element type is not Uint8 but " ++ constant.text)
  | unknownAttribute name => invalidData ("unmatched attribute: " ++ name)
  | unknownFrame tag => invalidData s!"Unsupported frame_type: {tag}"
  | unknownVerificationType tag => invalidData s!"tag {tag} is not valid"
  | unknownTarget tag => invalidData s!"Invalid target_type: {tag}"
  | unknownElement tag => invalidData s!"Unsupported element tag: {tag}"
  | trailingBytes size position =>
      invalidInput s!"Not all was read : data.len() is {size}, start_from is {position}"
where
  invalidInput (cause : String) : String := wrapped "InvalidInput" (Quoted.encode cause)
  invalidData (cause : String) : String := wrapped "InvalidData" (Quoted.encode cause)

end FormatError

/-- A place in a class file of `size` bytes. -/
structure Cursor where
  size : Nat
  position : Nat
  rest : Bytes

/-- The front of a byte string. -/
def Cursor.start (bytes : Bytes) : Cursor := ⟨bytes.length, 0, bytes⟩

/-- Move over `count` bytes. -/
def Cursor.advance (cursor : Cursor) (count : Nat) : Cursor :=
  { cursor with position := cursor.position + count, rest := cursor.rest.drop count }

/-- A reading step: it moves the cursor and gives a value, or fails. -/
abbrev Parse := StateT Cursor (Except FormatError)

namespace Parse

/-- Read a big-endian number of `width` bytes. -/
def number (width : Nat) : Parse Nat := fun cursor =>
  match slice? cursor.rest 0 width with
  | some part => .ok (bigEndian part, cursor.advance width)
  | none => .error (.shortNumber cursor.position cursor.size)

/-- Make sure that `length` bytes are left. -/
def require (length : Nat) : Parse Bytes := fun cursor =>
  match slice? cursor.rest 0 length with
  | some part => .ok (part, cursor)
  | none => .error (.shortChunk (cursor.position + length) cursor.size)

/-- Read a byte string of `length` bytes. -/
def chunk (length : Nat) : Parse Bytes := do
  let part ← require length
  modify (·.advance length)
  return part

/-- Read `count` items in order. -/
def repeated {α : Type} (count : Nat) (item : Parse α) : Parse (List α) :=
  match count with
  | 0 => return []
  | count + 1 => do
      let first ← item
      let others ← repeated count item
      return first :: others

/-- Pass over numbers of the given widths. -/
def skip : List Nat → Parse Unit
  | [] => return ()
  | width :: widths => do
      let _ ← number width
      skip widths

/-- Pass over `count` items. -/
def skipEach (count : Nat) (item : Parse Unit) : Parse Unit := do
  let _ ← repeated count item
  return ()

/-- Pass over a table: its number of rows in `countWidth` bytes, then the rows. -/
def skipTable (countWidth : Nat) (row : Parse Unit) : Parse Unit := do
  let count ← number countWidth
  skipEach count row

/-- Run a reading step from the front of a byte string. -/
def run {α : Type} (step : Parse α) (bytes : Bytes) : Except FormatError (α × Cursor) :=
  step (Cursor.start bytes)

end Parse

end CallRedirect.ClassFile
