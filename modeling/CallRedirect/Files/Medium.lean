import CallRedirect.Files.System

/-!
# Writing

What is written goes to a medium: a file, or whatever the standard output leads to.  A
medium takes bytes in the order in which they are handed over.  It may stop, since a disk is
full or nobody reads any more: then it takes the bytes that still fit and none after them.
A write that is interrupted is repeated, so it is no error.

Of the devices of a system only the one that is always full is there.
-/

namespace CallRedirect

/-- Why bytes are not taken, in the words of the system. -/
structure WriteError where
  message : String
  deriving DecidableEq, Repr

/-- The error of a full disk. -/
def WriteError.noSpace : WriteError := ⟨"No space left on device (os error 28)"⟩

/-- Where a medium stops: how many bytes it still takes, and why it takes no more. -/
structure Limit where
  room : Nat
  cause : WriteError
  deriving DecidableEq, Repr

/-- A medium with the bytes that it has taken, and where it stops if it does. -/
structure Medium where
  taken : Bytes
  limit : Option Limit
  deriving DecidableEq, Repr

/-- Bytes that are handed over at once, and how it is explained if they are not all taken. -/
structure Piece (ε : Type) where
  bytes : Bytes
  explain : WriteError → ε

namespace Medium

/-- A medium that has taken nothing yet. -/
def fresh (limit : Option Limit) : Medium := ⟨[], limit⟩

/-- Hand over bytes. -/
def give (medium : Medium) (bytes : Bytes) : Medium × Except WriteError Unit :=
  match medium.limit with
  | none => (⟨medium.taken ++ bytes, none⟩, .ok ())
  | some ⟨room, cause⟩ =>
    (⟨medium.taken ++ bytes.take room, some ⟨room - bytes.length, cause⟩⟩,
      if bytes.length ≤ room then .ok () else .error cause)

/-- Hand over pieces in order, up to the first that is not taken as a whole. -/
def giveAll {ε : Type} (medium : Medium) : List (Piece ε) → Medium × Except ε Unit
  | [] => (medium, .ok ())
  | piece :: pieces =>
    match medium.give piece.bytes with
    | (next, .ok ()) => next.giveAll pieces
    | (next, .error cause) => (next, .error (piece.explain cause))

end Medium

/-! ## The device that is always full -/

/-- The place of the device that is always full. -/
def fullDevice : List String := ["dev", "full"]

/-- The file system with the device that is always full.  Nothing is ever stored there. -/
def FileSystem.withFullDevice (system : FileSystem) : FileSystem :=
  system.write fullDevice []

end CallRedirect
