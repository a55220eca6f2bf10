import CallRedirect.Archive.Record

/-!
# End records

An archive ends with a record that says where its directory starts and how many
headers it has.  Other bytes may stand in front of an archive; then all places
that its records name are moved by as many bytes.  How many these are is seen
from where the first directory header is found.

Where the numbers of an end record have no room, a wide end record stands before
it, and a locator between the two names its place.  Then it is the place where the
wide end record is found that tells by how much places are moved.
-/

namespace CallRedirect.Archive

/-- The bytes that a directory header starts with. -/
def headerMark : Bytes := [0x50, 0x4b, 0x01, 0x02]

/-- The bytes that an end record starts with. -/
def endMark : Bytes := [0x50, 0x4b, 0x05, 0x06]

/-- The bytes that a wide end record starts with. -/
def wideEndMark : Bytes := [0x50, 0x4b, 0x06, 0x06]

/-- The bytes that a locator starts with. -/
def locatorMark : Bytes := [0x50, 0x4b, 0x06, 0x07]

/-- The number of bytes of a directory header before its name. -/
def headerSize : Nat := 46

/-- The number of bytes of a locator. -/
def locatorSize : Nat := 20

/-- The number of bytes of a wide end record that its length does not count. -/
def uncountedSize : Nat := 12

/-- The least length of a wide end record. -/
def leastLength : Nat := 44

/-- The places at which a mark stands, given the place of the first byte. -/
def occurrences (mark : Bytes) (place : Nat) : Bytes → List Nat
  | [] => []
  | byte :: bytes =>
      let later := occurrences mark (place + 1) bytes
      if mark.isPrefixOf (byte :: bytes) then place :: later else later

/-- The places from `first` on and before `last` at which a mark stands. -/
def occurrencesBetween (mark : Bytes) (first last : Nat) (bytes : Bytes) : List Nat :=
  occurrences mark first ((bytes.take last).drop first)

/-- What an end record tells. -/
structure EndRecord where
  disk : Nat
  directoryDisk : Nat
  countHere : Nat
  count : Nat
  start : Nat
  deriving DecidableEq, Repr

/-- Read an end record, behind which its comment stands. -/
def EndRecord.read : Record EndRecord := do
  Record.mark endMark
  let disk ← Record.number 2
  let directoryDisk ← Record.number 2
  let countHere ← Record.number 2
  let count ← Record.number 2
  Record.skip 4
  let start ← Record.number 4
  let commentLength ← Record.number 2
  Record.skip commentLength
  return { disk, directoryDisk, countHere, count, start }

/-- Whether a wide end record may stand before an end record. -/
def EndRecord.mayBeWide (record : EndRecord) : Bool :=
  record.count = 0xffff || record.start = 0xffffffff

/-- What a locator tells. -/
structure Locator where
  directoryDisk : Nat
  place : Nat
  disks : Nat
  deriving DecidableEq, Repr

/-- Read a locator. -/
def Locator.read : Record Locator := do
  Record.mark locatorMark
  let directoryDisk ← Record.number 4
  let place ← Record.number 8
  let disks ← Record.number 4
  return { directoryDisk, place, disks }

/-- What a wide end record tells. -/
structure WideEndRecord where
  length : Nat
  versionMadeBy : Nat
  versionNeeded : Nat
  disk : Nat
  directoryDisk : Nat
  countHere : Nat
  count : Nat
  start : Nat
  deriving DecidableEq, Repr

/-- Read a wide end record. -/
def WideEndRecord.read : Record WideEndRecord := do
  Record.mark wideEndMark
  let length ← Record.number 8
  let versionMadeBy ← Record.number 2
  let versionNeeded ← Record.number 2
  let disk ← Record.number 4
  let directoryDisk ← Record.number 4
  let countHere ← Record.number 8
  let count ← Record.number 8
  Record.skip 8
  let start ← Record.number 8
  return { length, versionMadeBy, versionNeeded, disk, directoryDisk, countHere, count, start }

/-- Where a directory is: the place of its first header, by how much the places
named in headers are moved, and the number of headers. -/
structure DirectoryPlace where
  start : Nat
  shift : Nat
  count : Nat
  deriving DecidableEq, Repr

/-- The directory of the end record at `place`.  Without entries it ends there. -/
def EndRecord.directory? (record : EndRecord) (bytes : Bytes) (place : Nat) :
    Option DirectoryPlace :=
  if record.disk ≠ record.directoryDisk then none
  else if record.count = 0 then
    some ⟨max place record.start, place - record.start, record.countHere⟩
  else if place ≤ record.start then none
  else
    (occurrencesBetween headerMark record.start place bytes).head?.map fun first =>
      ⟨first, first - record.start, record.countHere⟩

/-- Whether a wide end record at `place` fits the locator at `finish`: it reaches up
to it, tells the same disk, and its headers have room before it. -/
def WideEndRecord.fits (record : WideEndRecord) (locator : Locator) (place finish : Nat) : Bool :=
  leastLength ≤ record.length && place + record.length + uncountedSize = finish &&
    record.directoryDisk = locator.directoryDisk &&
    headerSize * record.count + record.start ≤ place

/-- The wide end record that the locator at `finish` leads to, with its place: the
first one that fits, from the place that the locator names on. -/
def Locator.wideEnd? (locator : Locator) (bytes : Bytes) (finish : Nat) :
    Option (Nat × WideEndRecord) :=
  if finish ≤ locator.place ∨ 1 < locator.disks then none
  else
    (occurrencesBetween wideEndMark locator.place finish bytes).findSome? fun place => do
      let record ← WideEndRecord.read.at? bytes place
      if record.fits locator place finish then some (place, record) else none

/-- The directory of a wide end record, given by how much places are moved. -/
def WideEndRecord.directory? (record : WideEndRecord) (shift : Nat) : Option DirectoryPlace :=
  if record.count < record.countHere ∨ record.versionMadeBy < record.versionNeeded ∨
      record.disk ≠ record.directoryDisk then none
  else some ⟨record.start + shift, shift, record.count⟩

/-- The locator before the end record at `place`, with its place. -/
def locatorBefore? (bytes : Bytes) (place : Nat) : Option (Nat × Locator) :=
  if place < locatorSize then none
  else (Locator.read.at? bytes (place - locatorSize)).map (place - locatorSize, ·)

/-- The directory that the end record at `place` leads to. -/
def directoryPlace? (bytes : Bytes) (place : Nat) : Option DirectoryPlace := do
  let record ← EndRecord.read.at? bytes place
  match if record.mayBeWide then locatorBefore? bytes place else none with
  | none => record.directory? bytes place
  | some (finish, locator) => do
      let (found, wide) ← locator.wideEnd? bytes finish
      wide.directory? (found - locator.place)

end CallRedirect.Archive
