import CallRedirect.Batch
import CallRedirect.Explain
import CallRedirect.Files.Medium
import CallRedirect.Sarif.Document
import CallRedirect.Usage

/-!
# Runs

A run loads its rules, scans its input, redirects the calls of its classes and
only then opens its output, so all that it reports was read before anything is
written.  The first of these stages that fails ends the run, and then nothing is
written at all.

Opening an output that is a file empties it.  Then the report is written, and that
fails if the output does not take all of it.  What was taken by then stays there.
-/

namespace CallRedirect

/-- Why a run fails. -/
inductive RunError
  | inputMissing (path : String)
  | rules (cause : RuleError)
  | scan (cause : ScanError)
  | output (path : String) (cause : FileError)
  | unserialized (cause : WriteError)
  | unwritten (cause : WriteError)
  deriving Repr

/-- The failure of a run. -/
def RunError.failure : RunError → Failure
  | inputMissing path => .ofText ("input not found: " ++ path) .other
  | rules cause => cause.failure
  | scan cause => cause.failure
  | output path cause => cause.failure.within ("failed to open " ++ path)
  | unserialized cause =>
      (Failure.ofText cause.message .json).within "failed to serialize SARIF output"
  | unwritten cause =>
      (Failure.ofText cause.message .file).within "failed to write SARIF output"

/-- Where the report of a run goes. -/
inductive Destination
  | standardOutput
  | file (place : List String)
  deriving DecidableEq, Repr

/-- Where each destination stops, if it does. -/
abbrev Media := Destination → Option Limit

/-- Destinations that take everything, except for the device that is always full. -/
def Media.roomy : Media := fun destination =>
  if destination = .file fullDevice then some ⟨0, .noSpace⟩ else none

/-- How much a run went through. -/
structure Tally where
  classes : Nat
  candidates : Nat
  redirections : Nat
  missing : Nat
  deriving DecidableEq, Repr

/-- A tally as a line of text. -/
def Tally.line (tally : Tally) (milliseconds : String) : String :=
  "timing: total_ms=" ++ milliseconds ++ s!" classes={tally.classes}" ++
    s!" candidates={tally.candidates} redirections={tally.redirections}" ++
    s!" missing={tally.missing}"

/-- What a run leads to that gets as far as its output. -/
structure RunResult where
  report : Json.Value
  destination : Destination
  tally : Tally
  deriving Repr

namespace RunResult

/-- The report as it is written. -/
def text (result : RunResult) : String := result.report.pretty ++ "\n"

/-- The bytes of the report as it is written. -/
def bytes (result : RunResult) : Bytes := Utf8.bytes result.text

/-- How many bytes of the report its destination is given while the report is made.  The
standard output gets whole lines, so the last one, a single brace, waits for its end. -/
def earlyLength (result : RunResult) : Nat :=
  let body := Utf8.bytes result.report.pretty
  match result.destination with
  | .file _ => body.length
  | .standardOutput => (body.reverse.dropWhile (· ≠ '\n'.toUInt8)).length

/-- The report in the pieces that are written. -/
def pieces (result : RunResult) : List (Piece RunError) := [
  ⟨result.bytes.take result.earlyLength, .unserialized⟩,
  ⟨result.bytes.drop result.earlyLength, .unwritten⟩]

/-- Write the report.  The result has the bytes that were taken of it. -/
def write (result : RunResult) (limit : Option Limit) : Medium × Except RunError Unit :=
  (Medium.fresh limit).giveAll result.pieces

end RunResult

namespace Settings

/-- The rules of a run: those of the rule file, or else the built-in ones. -/
def loadRules (settings : Settings) (system : FileSystem) : Logged RunError RuleSet := do
  match settings.rules with
  | some path => (RuleSet.load system path).mapError .rules
  | none => do
      Logged.log RuleSet.builtinEvents
      return RuleSet.builtin

/-- Where the report of a run goes.  A dash stands for the standard output. -/
def destination (settings : Settings) (system : FileSystem) : Except RunError Destination :=
  match settings.output with
  | none => .ok .standardOutput
  | some path =>
    if Path.isDash path then .ok .standardOutput
    else ((system.locateOutput path).map .file).mapError (.output path)

/-- Run.  The report shows the arguments of the program, if they are given. -/
def run (settings : Settings) (system : FileSystem) (arguments : Option (List String)) :
    Logged RunError RunResult := do
  if ¬ system.contains settings.input then
    .ofExcept (.error (.inputMissing settings.input))
  let rules ← settings.loadRules system
  Logged.log [.ruleSetReady rules.length]
  let scan ← (Scan.input system settings.input).mapError .scan
  let batch := rules.redirectClasses scan.classes
  Logged.log batch.events
  let report := Sarif.document scan.artifacts batch.results ⟨batch.missing = 0, arguments⟩
  let destination ← .ofExcept (settings.destination system)
  return {
    report := report
    destination := destination
    tally := ⟨scan.classes.length, batch.candidates, batch.redirections, batch.missing⟩
  }

end Settings

end CallRedirect
