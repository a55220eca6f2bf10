/-!
# Path texts

A path is a text of names divided by `/`.  Paths are worked on as texts, because
messages and artifacts show them as they were given.  An empty name and a `.`
stand for nothing, except that a `.` in front is kept.
-/

namespace CallRedirect.Path

/-- Paths of this many bytes are too long. -/
def sizeLimit : Nat := 4096

/-- Whether a path is too long to lead anywhere. -/
def isTooLong (path : String) : Bool := sizeLimit ≤ path.utf8ByteSize

/-- The names between the slashes of a path. -/
def components (path : String) : List String :=
  (path.toList.splitOn '/').map String.ofList

/-- Whether a path starts at the root. -/
def isAbsolute (path : String) : Bool := path.toList.head? = some '/'

/-- The names of a path that stand for something, a `.` in front included. -/
def significant (path : String) : List String :=
  let names := components path
  let front := if names.head? = some "." then ["."] else []
  front ++ names.filter (fun name => name ≠ "" && name ≠ ".")

/-- A reversed path without the empty names and the `.` at its end. -/
def trimReversed : List Char → List Char
  | '/' :: rest => trimReversed rest
  | '.' :: '/' :: rest => trimReversed rest
  | text => text

/-- The directory part of the path of a file. -/
def parent (path : String) : String :=
  let before := (path.toList.reverse.dropWhile (· ≠ '/')).drop 1
  let trimmed := String.ofList (trimReversed before).reverse
  if trimmed.isEmpty && isAbsolute path then "/" else trimmed

/-- A path taken from a directory.  An absolute path stays as it is. -/
def join (directory path : String) : String :=
  if isAbsolute path || directory.isEmpty then path
  else if directory.toList.getLast? = some '/' then directory ++ path
  else directory ++ "/" ++ path

/-- The last name of a path, if it is the name of something. -/
def fileName? (path : String) : Option String :=
  match (significant path).getLast? with
  | some "." => none
  | some ".." => none
  | last => last

/-- The part of the file name behind its last dot, unless that dot is its first
character; else the empty text. -/
def extension (path : String) : String :=
  match fileName? path with
  | none => ""
  | some name =>
    let reversed := name.toList.reverse
    let stem := (reversed.dropWhile (· ≠ '.')).drop 1
    if stem.isEmpty then "" else String.ofList (reversed.takeWhile (· ≠ '.')).reverse

/-- Whether a path is the single name `-`. -/
def isDash (path : String) : Bool :=
  ! isAbsolute path && significant path = ["-"]

end CallRedirect.Path
