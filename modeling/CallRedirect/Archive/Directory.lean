import CallRedirect.Archive.EndRecord
import CallRedirect.Archive.ExtraField
import CallRedirect.Text.CodePage

/-!
# Archive directories

The end record of an archive is looked for from the back.  One that does not lead
to a readable directory is passed over.  A directory is a row of headers, one for
each entry.
-/

namespace CallRedirect.Archive

/-- Why an archive is not opened. -/
inductive ArchiveError
  | noDirectory
  | badLocalHeader
  | encrypted
  | unsupportedMethod
  deriving DecidableEq, Repr

/-- The text of an archive error. -/
def ArchiveError.message : ArchiveError → String
  | noDirectory => "invalid Zip archive: Could not find EOCD"
  | badLocalHeader => "invalid Zip archive: Invalid local file header"
  | encrypted => "unsupported Zip archive: Password required to decrypt file"
  | unsupportedMethod => "unsupported Zip archive: Compression method not supported"

/-- The method of a header whose entry is sealed, which hides the real one. -/
def sealedMethod : Nat := 99

/-- The end of the places that an archive can have. -/
def placeLimit : Nat := 0x10000000000000000

/-- Move the place of an entry by `shift`. -/
def Entry.move? (shift : Nat) (entry : Entry) : Option Entry :=
  if entry.header + shift < placeLimit then some { entry with header := entry.header + shift }
  else none

/-- The text of bytes of a header. -/
def headerText (isUtf8 : Bool) (bytes : Bytes) : String :=
  if isUtf8 then Utf8.decodeLossy bytes else CodePage.decode bytes

/-- Read a directory header; the place it names is moved by `shift`. -/
def Entry.read (shift : Nat) : Record Entry := do
  Record.mark headerMark
  Record.skip 4
  let flags ← Record.number 2
  let method ← Record.number 2
  Record.skip 4
  let checksum ← Record.number 4
  let storedSize ← Record.number 4
  let size ← Record.number 4
  let nameLength ← Record.number 2
  let extraLength ← Record.number 2
  let commentLength ← Record.number 2
  Record.skip 8
  let header ← Record.number 4
  let storedName ← Record.chunk nameLength
  let extra ← Record.chunk extraLength
  let comment := headerText (flags.testBit 11) (← Record.chunk commentLength)
  let name := headerText (flags.testBit 11) storedName
  let entry ← ExtraField.applyAll extra
    ⟨name, storedName, comment, method, flags.testBit 0, false, checksum, storedSize, size, header⟩
  if entry.method = sealedMethod ∧ ¬ entry.isSealed then Record.fail
  Entry.move? shift entry

/-- Read directory headers, in order. -/
def readHeaders (shift : Nat) : Nat → Record (List Entry)
  | 0 => return []
  | count + 1 => do
      let entry ← Entry.read shift
      return entry :: (← readHeaders shift count)

/-- The entries that the end record at `place` leads to. -/
def readDirectory? (bytes : Bytes) (place : Nat) : Option (List Entry) := do
  let directory ← directoryPlace? bytes place
  (readHeaders directory.shift directory.count).at? bytes directory.start

/-- The entries of an archive.  Of entries with one name the last one counts, in
the place of the first. -/
def readEntries (bytes : Bytes) : Except ArchiveError (List Entry) :=
  match (occurrences endMark 0 bytes).reverse.findSome? (readDirectory? bytes) with
  | some entries => .ok (entries.foldl (fun known entry => replaceEntry entry known) [])
  | none => .error .noDirectory

end CallRedirect.Archive
