import CallRedirect.Archive.Content
import CallRedirect.Artifact
import CallRedirect.ClassFile.Lift
import CallRedirect.Event.Logged
import CallRedirect.Files.System
import CallRedirect.Files.Walk

/-!
# Scanning

An input is a class file, an archive of class files or a directory that is walked
for both.  What is read goes into the artifact table, and every class file is
lifted to a class that knows its position there.  An archive stands in the table
before its entries.

A file with another extension is passed over in a directory and refused as an
input.
-/

namespace CallRedirect

/-- Why a scan fails. -/
inductive ScanError
  | unsupported (path : String)
  | unreadable (path : String) (cause : FileError)
  | unopened (path : String) (cause : FileError)
  | malformed (path : String) (cause : LiftError)
  | archive (path : String) (cause : Archive.ArchiveError)
  | entry (path name : String) (cause : Archive.ContentError)
  | malformedEntry (path name : String) (cause : LiftError)
  deriving DecidableEq, Repr

/-- The artifacts that were read and the classes lifted from them, in order. -/
structure Scan where
  artifacts : List Artifact
  classes : List Class
  deriving DecidableEq, Repr

namespace Scan

/-- Nothing scanned. -/
def empty : Scan := ⟨[], []⟩

instance : Append Scan where
  append first second :=
    ⟨first.artifacts ++ second.artifacts, first.classes ++ second.classes⟩

/-- Lift a class, which is logged. -/
def lift (bytes : Bytes) (artifact : Nat) : Logged LiftError Class := do
  let cls ← .ofExcept (liftClass bytes artifact)
  Logged.log [cls.liftedEvent]
  return cls

/-- Scan a class file that stands at position `first` of the artifact table. -/
def classFile (first : Nat) (isInput : Bool) (file : FoundFile) : Logged ScanError Scan := do
  let bytes ← .ofExcept (file.content.mapError (.unreadable file.path))
  let cls ← (lift bytes first).mapError (.malformed file.path)
  return ⟨[⟨file.path, some (bytes.length : Int), none, isInput⟩], [cls]⟩

/-- Whether an entry of an archive is a class to be lifted. -/
def isClassEntry (name : String) : Bool :=
  name.endsWith ".class" && ! name.endsWith "module-info.class"

/-- Scan an entry of the archive `container`, whose path is `path` and which stands at
position `parent`. -/
def archiveEntry (first parent : Nat) (path : String) (container : Bytes)
    (entry : Archive.Entry) : Logged ScanError Scan := do
  let bytes ← .ofExcept ((Archive.content container entry).mapError (.entry path entry.name))
  let cls ← (lift bytes first).mapError (.malformedEntry path entry.name)
  let uri := "jar:" ++ path ++ "!/" ++ entry.name
  return ⟨[⟨uri, some (signed64 entry.size), some parent, false⟩], [cls]⟩

/-- Scan entries of an archive in order. -/
def archiveEntries (first parent : Nat) (path : String) (container : Bytes) :
    List Archive.Entry → Logged ScanError Scan
  | [] => return empty
  | entry :: entries => do
      let head ← archiveEntry first parent path container entry
      let others ← archiveEntries (first + head.artifacts.length) parent path container entries
      return head ++ others

/-- Scan an archive that stands at position `first` of the artifact table. -/
def archive (first : Nat) (isInput : Bool) (file : FoundFile) : Logged ScanError Scan := do
  let container ← .ofExcept (file.content.mapError (.unopened file.path))
  let entries ← .ofExcept ((Archive.openEntries container).mapError (.archive file.path))
  let classes := (entries.filter (fun entry => isClassEntry entry.name)).mergeSort
    (fun a b => a.name ≤ b.name)
  let own : Scan := ⟨[⟨file.path, some (container.length : Int), none, isInput⟩], []⟩
  let others ← archiveEntries (first + 1) first file.path container classes
  return own ++ others

/-- Scan a file that stands at position `first` of the artifact table. -/
def file (first : Nat) (isInput : Bool) (file : FoundFile) : Logged ScanError Scan :=
  match Path.extension file.path with
  | "class" => classFile first isInput file
  | "jar" => archive first isInput file
  | _ => return empty

/-- Scan files in order. -/
def files (first : Nat) : List FoundFile → Logged ScanError Scan
  | [] => return empty
  | found :: others => do
      let head ← file first false found
      let rest ← files (first + head.artifacts.length) others
      return head ++ rest

/-- Scan an input. -/
def input (system : FileSystem) (path : String) : Logged ScanError Scan :=
  match system.lookup path with
  | .ok (.directory entries) => files 0 ((FileNode.directory entries).walk path)
  | _ =>
    match Path.extension path with
    | "class" => classFile 0 true ⟨path, system.read path⟩
    | "jar" => archive 0 true ⟨path, system.read path⟩
    | _ => .ofExcept (.error (.unsupported path))

end Scan

end CallRedirect
