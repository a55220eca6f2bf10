import CallRedirect.Event.Filter
import CallRedirect.Event.Line
import CallRedirect.Run

/-!
# The program

The program takes its arguments, the files and the setting for the log, and ends
with an exit code, with what it wrote to its two outputs, and with the files as
they are then.
-/

namespace CallRedirect

/-- What the program leaves behind.  The tally is shown last, once the time that
was taken is known. -/
structure Outcome where
  exitCode : Nat
  printed : Bytes
  errors : List String
  tally : Option Tally
  system : FileSystem
  written : Option (List String × Bytes)

namespace Outcome

/-- The text on the standard output. -/
def output (outcome : Outcome) : String := Utf8.decodeLossy outcome.printed

/-- The outcome with the bytes of a report where they go. -/
def withReport (outcome : Outcome) (taken : Bytes) : Destination → Outcome
  | .standardOutput => { outcome with printed := taken }
  | .file place =>
      { outcome with system := outcome.system.write place taken, written := some (place, taken) }

/-- The lines of the error output. -/
def errorLines (outcome : Outcome) (milliseconds : String) : List String :=
  outcome.errors ++ (outcome.tally.map (fun tally => tally.line milliseconds)).toList

end Outcome

namespace Program

/-- What the program says about itself. -/
def about : String :=
  "Deterministic call-site redirection for JVM class files and JAR files, reported as SARIF."

/-- How the program is called. -/
def usageText : String := "Usage: " ++ Sarif.toolName ++ " [OPTIONS] --input <PATH>"

/-- The help text. -/
def helpText : String :=
  "\n".intercalate [
    about,
    "",
    usageText,
    "",
    "Options:",
    "      --input <PATH>   ",
    "      --rules <PATH>   Rule configuration; the built-in rules are used when omitted",
    "      --output <PATH>  ",
    "      --quiet          ",
    "      --verbose        ",
    "      --timing         ",
    "  -h, --help           Print help",
    "  -V, --version        Print version",
    ""]

/-- The outcome of a command line that does not lead to a run. -/
def refuse (system : FileSystem) : UsageError → Outcome
  | .displayHelp => ⟨0, Utf8.bytes helpText, [], none, system, none⟩
  | .displayVersion =>
      ⟨0, Utf8.bytes (Sarif.toolName ++ " " ++ Sarif.toolVersion ++ "\n"), [], none, system, none⟩
  | e => ⟨2, [], ["error: " ++ e.name, "", usageText, "",
      "For more information, try '--help'."], none, system, none⟩

/-- The least severe level that is logged if nothing else is set. -/
def logLevel (settings : Settings) : Level :=
  if settings.quiet then .error else if settings.verbose then .debug else .warn

/-- The log lines of events. -/
def logLines (filter : EventFilter) (events : List Event) : List String :=
  (events.filter filter.allows).flatMap (fun event => event.line.splitOn "\n")

/-- The outcome of a run that fails, apart from what is left of its report. -/
def failed (system : FileSystem) (lines : List String) (cause : RunError) : Outcome :=
  ⟨1, [], lines ++ cause.failure.report, none, system, none⟩

/-- The outcome of a run that succeeds, apart from its report. -/
def succeeded (settings : Settings) (system : FileSystem) (lines : List String)
    (tally : Tally) : Outcome :=
  ⟨0, [], lines, if settings.timing && ! settings.quiet then some tally else none, system, none⟩

/-- The outcome of a run, whose report goes to its destination as far as it is taken there. -/
def conclude (settings : Settings) (filter : EventFilter) (media : Media) (system : FileSystem)
    (work : Logged RunError RunResult) : Outcome :=
  let lines := logLines filter work.events
  match work.outcome with
  | .error cause => failed system lines cause
  | .ok result =>
    let (medium, ending) := result.write (media result.destination)
    let outcome :=
      match ending with
      | .ok () => succeeded settings system lines result.tally
      | .error cause => failed system lines cause
    outcome.withReport medium.taken result.destination

/-- The program: called as `name` with `arguments`, and with the setting for the
log if there is one. -/
def run (system : FileSystem) (name : String) (arguments : List String)
    (logSetting : Option String) : Outcome :=
  let system := system.withFullDevice
  match Usage.parse arguments with
  | .error e => refuse system e
  | .ok settings =>
    let filter := EventFilter.ofSetting logSetting (logLevel settings)
    conclude settings filter .roomy system (settings.run system (some (name :: arguments)))

end Program

end CallRedirect
