import CallRedirect.Bytes

/-!
# Entries of archives

An entry is what the directory of an archive tells about one of its files.
-/

namespace CallRedirect.Archive

/-- An entry of an archive as its directory tells it.  The name is kept as it is
stored, too.  The data of a sealed entry is encrypted, and its method is not the
one that its header names. -/
structure Entry where
  name : String
  storedName : Bytes
  comment : String
  method : Nat
  encrypted : Bool
  isSealed : Bool
  checksum : Nat
  storedSize : Nat
  size : Nat
  header : Nat
  deriving DecidableEq, Repr

/-- Put an entry in the place of one with the same name, or at the end. -/
def replaceEntry (entry : Entry) : List Entry → List Entry
  | [] => [entry]
  | other :: entries =>
      if other.name = entry.name then entry :: entries
      else other :: replaceEntry entry entries

end CallRedirect.Archive
