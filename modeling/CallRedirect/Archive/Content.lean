import CallRedirect.Archive.Checksum
import CallRedirect.Archive.Directory
import CallRedirect.Archive.Inflate

/-!
# Contents of archives

The data of an entry follows its local header.  It is stored as it is or
deflated.  The sizes that count are those of the directory: so many bytes are
taken, as far as the archive has them.  The check sum of the directory has to fit
what comes out.

The other ways to pack an entry (deflate64, bzip2, LZMA, XZ, Zstandard) are left
out: an entry that is packed in one of them is an error here.
-/

namespace CallRedirect.Archive

/-- Why the content of an entry is not read. -/
inductive ContentError
  | archive (cause : ArchiveError)
  | inflate (cause : InflateError)
  | checksum
  deriving DecidableEq, Repr

/-- The text of a content error. -/
def ContentError.message : ContentError → String
  | archive cause => cause.message
  | inflate cause => cause.message
  | checksum => "Invalid checksum"

/-- How the data of an entry is stored. -/
inductive Packing
  | stored | deflated
  deriving DecidableEq, Repr

/-- The packing of a method. -/
def Packing.ofMethod? : Nat → Option Packing
  | 0 => some .stored
  | 8 => some .deflated
  | _ => none

/-- The bytes that a local header starts with. -/
def localMark : Bytes := [0x50, 0x4b, 0x03, 0x04]

/-- Read a local header; the result is the number of bytes before the data. -/
def localHeader : Record Nat := do
  Record.mark localMark
  Record.skip 22
  let nameLength ← Record.number 2
  let extraLength ← Record.number 2
  return 30 + nameLength + extraLength

/-- The data of an entry as it stands in the archive, with its packing. -/
def packedData (bytes : Bytes) (entry : Entry) : Except ArchiveError (Packing × Bytes) := do
  if entry.encrypted || entry.isSealed then throw .encrypted
  let (some before) := localHeader.at? bytes entry.header | throw .badLocalHeader
  let (some packing) := Packing.ofMethod? entry.method | throw .unsupportedMethod
  return (packing, (bytes.drop (entry.header + before)).take entry.storedSize)

/-- The bytes that data unpacks to. -/
def unpack : Packing × Bytes → Except InflateError Bytes
  | (.stored, data) => .ok data
  | (.deflated, data) => inflate data

/-- The content of an entry. -/
def content (bytes : Bytes) (entry : Entry) : Except ContentError Bytes := do
  let data ← (packedData bytes entry).mapError .archive
  let unpacked ← (unpack data).mapError .inflate
  if (checksum unpacked).toNat = entry.checksum then return unpacked
  else throw .checksum

/-- The entries of an archive, all of which can be opened. -/
def openEntries (bytes : Bytes) : Except ArchiveError (List Entry) := do
  let entries ← readEntries bytes
  entries.forM (fun entry => do
    let _ ← packedData bytes entry)
  return entries

end CallRedirect.Archive
