import CallRedirect.ClassTarget.Schema
import CallRedirect.Files.System
import CallRedirect.Json.Reader

/-!
# Loading target data

Target data comes from a text, from a file or from a value inside a rule.  An
error names the source that the data came from.
-/

namespace CallRedirect

/-- Why target data is not loaded. -/
inductive TargetError
  | unreadable (path : String) (cause : FileError)
  | malformed (source : String) (cause : Json.ReadError)
  | invalid (source : String) (faults : List FormFault)
  | unexpected (source : String) (cause : Json.ReadError)
  deriving Repr

namespace ClassTarget

/-- The targets that a value holds. -/
def fromValue (value : Json.Value) (source : String) : Except TargetError (List ClassTarget) :=
  match TargetForm.faults value with
  | [] => (listOfValue value).mapError (.unexpected source)
  | faults => .error (.invalid source faults)

/-- The targets that a text holds. -/
def parseAll (text source : String) : Except TargetError (List ClassTarget) := do
  let value ← (Json.Value.parse text).mapError (.malformed source)
  fromValue value source

/-- The targets that a file holds. -/
def load (system : FileSystem) (path : String) : Except TargetError (List ClassTarget) := do
  let text ← (system.readText path).mapError (.unreadable path)
  parseAll text path

end ClassTarget

end CallRedirect
