import CallRedirect.Archive.Checksum
import CallRedirect.Archive.Entry
import CallRedirect.Archive.Record
import CallRedirect.Text.Utf8

/-!
# Extra fields

Behind the name of a directory header stand extra fields.  A field has a kind, a
length and a content.  Fields are applied to the entry in order, and a later one
sees what an earlier one has changed:

* wide numbers stand for those that the header has no room for;
* a sealing field names the method of an encrypted entry;
* a text field gives the name or the comment in UTF-8, if the check sum of the one
  known so far fits;
* fields of times are only looked over;
* fields of other kinds are passed over.

A field of a known kind whose content does not fit makes the header unreadable.
-/

namespace CallRedirect.Archive

/-- An extra field. -/
structure ExtraField where
  kind : Nat
  content : Bytes
  deriving DecidableEq, Repr

namespace ExtraField

/-- Divide bytes into extra fields.  A single byte that is left over is passed
over; a field that breaks off makes all of them unreadable. -/
def split? : Bytes → Option (List ExtraField)
  | [] => some []
  | [_] => some []
  | kind₀ :: kind₁ :: length₀ :: length₁ :: bytes =>
      let length := littleEndian [length₀, length₁]
      if bytes.length < length then none
      else
        (split? (bytes.drop length)).map
          (⟨littleEndian [kind₀, kind₁], bytes.take length⟩ :: ·)
  | _ => none
  termination_by bytes => bytes.length
  decreasing_by simp only [List.length_drop, List.length_cons]; omega

/-- The number that a header has in the place of one it has no room for. -/
def noRoom : Nat := 0xffffffff

/-- The length of a field from which on it has wide numbers for all that a header
may have no room for. -/
def allWide : Nat := 24

/-- Read the wide number for a number of the header, if there is one. -/
def wideNumber (length known : Nat) : Record Nat :=
  if allWide ≤ length ∨ known = noRoom then Record.number 8 else return known

/-- Give an entry its wide numbers. -/
def widen (content : Bytes) (entry : Entry) : Option Entry :=
  let wide : Record Entry := do
    let size ← wideNumber content.length entry.size
    let storedSize ← wideNumber content.length entry.storedSize
    let header ← wideNumber content.length entry.header
    return { entry with size, storedSize, header }
  wide.at? content 0

/-- Whether a field holds file times: one attribute with the tag one and three
numbers of eight bytes. -/
def holdsFileTimes (content : Bytes) : Bool :=
  content.length = 32 && littleEndian ((content.drop 4).take 2) = 1 &&
    littleEndian ((content.drop 6).take 2) = 24

/-- Whether a field holds the times that its first byte tells, or just one. -/
def holdsTimes : Bytes → Bool
  | [] => false
  | flags :: times =>
      let told := ((List.range 8).filter (fun i => flags.toNat.testBit i)).length
      times.length = 4 || times.length = 4 * told

/-- The vendor of the only known way to seal entries. -/
def sealVendor : Nat := 0x4541

/-- Seal an entry, given the method that its data really has. -/
def applySealing (content : Bytes) (entry : Entry) : Option Entry :=
  let sealing : Record Entry := do
    let version ← Record.number 2
    let vendor ← Record.number 2
    let strength ← Record.number 1
    let method ← Record.number 2
    if vendor ≠ sealVendor ∨ version ∉ [1, 2] ∨ strength ∉ [1, 2, 3] then Record.fail
    return { entry with method, isSealed := true }
  if content.length = 7 then sealing.at? content 0 else none

/-- The bytes of a text field for a text whose bytes so far are `known`. -/
def textBytes? (known content : Bytes) : Option Bytes :=
  let text : Record Bytes := do
    Record.skip 1
    let sum ← Record.number 4
    if sum ≠ (checksum known).toNat then Record.fail
    Record.rest
  text.at? content 0

/-- Give an entry its comment in UTF-8. -/
def applyComment (content : Bytes) (entry : Entry) : Option Entry := do
  let bytes ← textBytes? entry.comment.toUTF8.toList content
  let comment ← Utf8.decode? bytes
  return { entry with comment }

/-- Give an entry its name in UTF-8. -/
def applyName (content : Bytes) (entry : Entry) : Option Entry := do
  let storedName ← textBytes? entry.storedName content
  let name ← Utf8.decode? storedName
  return { entry with name, storedName }

/-- Apply a field to an entry. -/
def apply (field : ExtraField) (entry : Entry) : Option Entry :=
  match field.kind with
  | 0x0001 => widen field.content entry
  | 0x000a => if holdsFileTimes field.content then some entry else none
  | 0x5455 => if holdsTimes field.content then some entry else none
  | 0x6375 => applyComment field.content entry
  | 0x7075 => applyName field.content entry
  | 0x9901 => applySealing field.content entry
  | _ => some entry

/-- Apply the fields that bytes hold to an entry, in order. -/
def applyAll (bytes : Bytes) (entry : Entry) : Option Entry := do
  let fields ← split? bytes
  fields.foldlM (fun known field => field.apply known) entry

end ExtraField

end CallRedirect.Archive
