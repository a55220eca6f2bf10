import CallRedirect.Program

/-!
# The command line

The program proper is a function of the files that it looks at.  Here the files
that a command line names are read beforehand, and afterwards the report is
written and the outputs are printed.  How much room there is for them is not known
beforehand, so the program is run as if there were enough.
-/

namespace CallRedirect.Main

/-- The path text of a place in the tree of files. -/
def pathText (place : List String) : String := "/" ++ "/".intercalate place

/-- Read a file or a directory with all that is below it. -/
partial def readNode (path : String) : IO (Option FileNode) := do
  try
    let mut entries := []
    for entry in ← ((← IO.currentDir) / path).readDir do
      match ← readNode (Path.join path entry.fileName) with
      | some node => entries := (entry.fileName, node) :: entries
      | none => pure ()
    return some (.directory entries)
  catch _ =>
    try
      let content ← IO.FS.readBinFile path
      return some (.file content.toList)
    catch _ => return none

/-- Whether there is a directory at a path. -/
def isDirectory (path : String) : IO Bool := do
  try
    let _ ← ((← IO.currentDir) / path).readDir
    return true
  catch _ => return false

/-- Put a node into the tree, unless something is there already. -/
def putNew (system : FileSystem) (place : List String) (node : FileNode) : FileSystem :=
  match system.root.at? place with
  | some _ => system
  | none => { system with root := system.root.put node place }

/-- Take over the directories that a path leads through.  The result also has the
place that it leads to. -/
def loadDirectories (system : FileSystem) (path : String) : IO (FileSystem × List String) := do
  let mut result := system
  let mut place := system.origin path
  for name in Path.components path do
    if name = ".." then place := place.dropLast
    else if name ≠ "" ∧ name ≠ "." then place := place ++ [name]
    if ← isDirectory (pathText place) then result := putNew result place (.directory [])
  return (result, place)

/-- Take over what a path leads to. -/
def load (system : FileSystem) (path : String) : IO FileSystem := do
  let (system, place) ← loadDirectories system path
  match ← readNode (pathText place) with
  | some node => return { system with root := system.root.put node place }
  | none => return system

/-- The paths of the target files that a rule file names. -/
def targetPaths (system : FileSystem) (path : String) : List String :=
  let entries := do
    let text ← (system.readText path).toOption
    (RuleConfig.parse text).toOption
  (entries.getD []).filterMap fun entry =>
    match entry.targets with
    | .path target => some (Path.join (Path.parent path) target)
    | .inline _ => none

/-- Take over all that a run looks at. -/
def loadAll (settings : Settings) (system : FileSystem) : IO FileSystem := do
  let mut system := system
  if let some path := settings.rules then
    system ← load system path
    for target in targetPaths system path do
      system ← load system target
  system ← load system settings.input
  if let some path := settings.output then
    system := (← loadDirectories system path).1
  return system

/-- Run the program on the files that there are. -/
def execute (arguments : List String) : IO UInt32 := do
  let start ← IO.monoMsNow
  let here := (← IO.currentDir).toString
  let empty : FileSystem := ⟨.directory [], []⟩
  let (known, place) ← loadDirectories empty here
  let bare : FileSystem := { known with workingDirectory := place }
  let system ←
    match Usage.parse arguments with
    | .ok settings => loadAll settings bare
    | .error _ => pure bare
  let outcome := Program.run system Sarif.toolName arguments (← IO.getEnv "RUST_LOG")
  (← IO.getStdout).write ⟨outcome.printed.toArray⟩
  if let some (place, report) := outcome.written then
    IO.FS.writeBinFile (pathText place) ⟨report.toArray⟩
  let elapsed := (← IO.monoMsNow) - start
  for line in outcome.errorLines (toString elapsed) do
    IO.eprintln line
  return UInt32.ofNat outcome.exitCode

end CallRedirect.Main

/-- The program. -/
def main (arguments : List String) : IO UInt32 := CallRedirect.Main.execute arguments
