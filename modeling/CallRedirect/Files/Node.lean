import CallRedirect.Bytes

/-!
# Files and directories

A node is a file with its bytes or a directory with its entries in the order in
which the file system lists them.  The names of a directory's entries differ.  Names are
Unicode texts: names that are not valid UTF-8 are left out, and so are directories
that cannot be listed and files that may not be opened.
-/

namespace CallRedirect

/-- A file or a directory. -/
inductive FileNode
  | file (content : Bytes)
  | directory (entries : List (String × FileNode))
  deriving Repr, Inhabited

namespace FileNode

/-- The entry of a directory with a name. -/
def child? (node : FileNode) (name : String) : Option FileNode :=
  match node with
  | file _ => none
  | directory entries => (entries.find? (fun entry => entry.1 = name)).map (·.2)

/-- The node that a list of names leads to. -/
def at? (node : FileNode) : List String → Option FileNode
  | [] => some node
  | name :: names => (node.child? name).bind (·.at? names)

/-- Entries with the one of a name replaced, or put at the end. -/
def replaceEntry (name : String) (node : FileNode) :
    List (String × FileNode) → List (String × FileNode)
  | [] => [(name, node)]
  | (other, current) :: rest =>
      if other = name then (name, node) :: rest
      else (other, current) :: replaceEntry name node rest

/-- The node with another one put where a list of names leads; directories on
the way that are not there are made. -/
def put (node target : FileNode) : List String → FileNode
  | [] => target
  | name :: names =>
      let entries := match node with
        | directory entries => entries
        | file _ => []
      let child := (node.child? name).getD (directory [])
      directory (replaceEntry name (child.put target names) entries)

end FileNode

/-- Why a file is not read or written. -/
inductive FileError
  | notFound
  | notDirectory
  | isDirectory
  | nameTooLong
  | nulInName
  | notText
  deriving DecidableEq, Repr

/-- The text of a file error. -/
def FileError.message : FileError → String
  | notFound => "No such file or directory (os error 2)"
  | notDirectory => "Not a directory (os error 20)"
  | isDirectory => "Is a directory (os error 21)"
  | nameTooLong => "File name too long (os error 36)"
  | nulInName => "file name contained an unexpected NUL byte"
  | notText => "stream did not contain valid UTF-8"

end CallRedirect
