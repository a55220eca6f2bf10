import CallRedirect.Files.Node
import CallRedirect.Files.Path

/-!
# Walking directories

The files below a directory are listed with their paths.  The entries of each
directory are taken in the order of their names, so the order in which the file
system keeps them does not show.

Where the path of an entry gets too long, the walk ends: what stands there cannot
be told from a file that is not readable, even if it is a directory.
-/

namespace CallRedirect

/-- A file that was found, with the path that leads to it and what reading it gives. -/
structure FoundFile where
  path : String
  content : Except FileError Bytes
  deriving Repr

namespace FileNode

mutual

/-- The files at and below a node that `path` leads to. -/
def walk (path : String) : FileNode → List FoundFile
  | file content =>
      [⟨path, if Path.isTooLong path then .error .nameTooLong else .ok content⟩]
  | directory entries =>
      if Path.isTooLong path then [⟨path, .error .nameTooLong⟩]
      else ((walkEntries path entries).mergeSort (fun a b => a.1 ≤ b.1)).flatMap (·.2)

/-- The names of entries, each with the files at and below it. -/
def walkEntries (path : String) : List (String × FileNode) → List (String × List FoundFile)
  | [] => []
  | (name, node) :: entries =>
      (name, node.walk (Path.join path name)) :: walkEntries path entries

end

end FileNode

end CallRedirect
