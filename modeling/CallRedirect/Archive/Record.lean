import CallRedirect.Bytes

/-!
# Reading records

The records of an archive are read field by field off the front of a byte string.
Their numbers have the lowest byte first.  A record that breaks off is not read.
-/

namespace CallRedirect.Archive

/-- A reading step: it takes bytes off the front and gives a value, or fails. -/
abbrev Record := StateT Bytes Option

namespace Record

/-- Fail because a record does not fit. -/
def fail {α : Type} : Record α := fun _ => none

/-- Read a byte string of `length` bytes. -/
def chunk (length : Nat) : Record Bytes := fun bytes =>
  (slice? bytes 0 length).map fun part => (part, bytes.drop length)

/-- Read a number of `width` bytes. -/
def number (width : Nat) : Record Nat := do return littleEndian (← chunk width)

/-- Pass over `length` bytes. -/
def skip (length : Nat) : Record Unit := do
  let _ ← chunk length
  return ()

/-- Pass over the bytes that a record starts with. -/
def mark (expected : Bytes) : Record Unit := do
  if (← chunk expected.length) ≠ expected then fail

/-- Read what is left. -/
def rest : Record Bytes := fun bytes => some (bytes, [])

/-- Run a reading step on the bytes from a place on. -/
def at? {α : Type} (step : Record α) (bytes : Bytes) (place : Nat) : Option α :=
  (step (bytes.drop place)).map (·.1)

end Record

end CallRedirect.Archive
