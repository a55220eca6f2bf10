import CallRedirect.Files.Node
import CallRedirect.Files.Path
import CallRedirect.Text.Utf8

/-!
# A file system

A file system is a tree of nodes and the directory that relative paths start
from.  A path is followed name by name: every name but the last has to lead to
a directory, and so has the last one if a slash follows.  Nothing but `write`
changes a file system.
-/

namespace CallRedirect

/-- A tree of files, and the names that lead to the working directory. -/
structure FileSystem where
  root : FileNode
  workingDirectory : List String
  deriving Repr, Inhabited

namespace FileSystem

/-- The most bytes that a name may have. -/
def nameLimit : Nat := 255

/-- Follow names from a place in the tree.  The result leads from the root to
the place that was reached. -/
def follow (system : FileSystem) (place : List String) :
    List String → Except FileError (List String)
  | [] => .ok place
  | name :: names =>
    match system.root.at? place with
    | some (.directory entries) =>
      if name = "" || name = "." then follow system place names
      else if name = ".." then follow system place.dropLast names
      else if nameLimit < name.utf8ByteSize then .error .nameTooLong
      else if ((FileNode.directory entries).child? name).isSome then
        follow system (place ++ [name]) names
      else .error .notFound
    | some (.file _) => .error .notDirectory
    | none => .error .notFound

/-- The place where a path starts. -/
def origin (system : FileSystem) (path : String) : List String :=
  if Path.isAbsolute path then [] else system.workingDirectory

/-- What is wrong with a path whatever files there are. -/
def textFault? (path : String) : Option FileError :=
  if path.toList.contains (Char.ofNat 0) then some .nulInName
  else if path.isEmpty then some .notFound
  else if Path.isTooLong path then some .nameTooLong
  else none

/-- The place that a path leads to. -/
def locate (system : FileSystem) (path : String) : Except FileError (List String) :=
  match textFault? path with
  | some fault => .error fault
  | none => system.follow (system.origin path) (Path.components path)

/-- The node that a path leads to. -/
def lookup (system : FileSystem) (path : String) : Except FileError FileNode := do
  let place ← system.locate path
  match system.root.at? place with
  | some node => return node
  | none => throw .notFound

/-- Whether a path leads to something. -/
def contains (system : FileSystem) (path : String) : Bool :=
  (system.lookup path).toOption.isSome

/-- The bytes of a file. -/
def read (system : FileSystem) (path : String) : Except FileError Bytes := do
  match ← system.lookup path with
  | .file content => return content
  | .directory _ => throw .isDirectory

/-- The text of a file. -/
def readText (system : FileSystem) (path : String) : Except FileError String := do
  let content ← system.read path
  match Utf8.decode? content with
  | some text => return text
  | none => throw .notText

/-- The place of the file that writing to a path would fill: its directory has to
be there, and it must not be a directory itself. -/
def locateOutput (system : FileSystem) (path : String) : Except FileError (List String) := do
  if let some fault := textFault? path then throw fault
  let reversed := (Path.components path).reverse
  let slashes := reversed.takeWhile (· = "")
  let (name, before) :=
    match reversed.dropWhile (· = "") with
    | [] => ("", [])
    | name :: before => (name, before.reverse)
  let directory ← system.follow (system.origin path) (before ++ [""])
  if ¬ slashes.isEmpty ∨ name = "" ∨ name = "." ∨ name = ".." then throw .isDirectory
  if nameLimit < name.utf8ByteSize then throw .nameTooLong
  match system.root.at? (directory ++ [name]) with
  | some (.directory _) => throw .isDirectory
  | _ => return directory ++ [name]

/-- The file system with the file at a place filled with bytes. -/
def write (system : FileSystem) (place : List String) (content : Bytes) : FileSystem :=
  { system with root := system.root.put (.file content) place }

end FileSystem

end CallRedirect
