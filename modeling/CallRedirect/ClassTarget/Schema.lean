import CallRedirect.ClassTarget
import CallRedirect.Json.Error
import CallRedirect.Json.Printer

/-!
# Target data

Target data is a list of records with a class name and method identifiers.  The
value is first checked against that form, and all faults are reported together:
those of the members that are there, then the members that are missing, then
the form of the record itself.  Members of other names are not looked at.

Only then is the value read as records.  Reading alone is looser: it takes a
record from an array as well, and empty texts.
-/

namespace CallRedirect

/-- Where target data departs from its form. -/
inductive FormFault
  | wrongType (value : Json.Value) (expected : String)
  | missing (member : String)
  | empty
  deriving Repr

/-- The text of a departure. -/
def FormFault.message : FormFault → String
  | wrongType value expected => value.compact ++ " is not of type " ++ Json.stringText expected
  | missing member => Json.stringText member ++ " is a required property"
  | empty => Json.stringText "" ++ " is shorter than 1 character"

namespace TargetForm

/-- The member of an object with a key. -/
def member? (key : String) (members : List (String × Json.Value)) : Option Json.Value :=
  (members.find? (fun member => member.1 = key)).map (·.2)

/-- The faults of a value that should be a text that is not empty. -/
def textFaults : Json.Value → List FormFault
  | .string text => if text.isEmpty then [.empty] else []
  | value => [.wrongType value "string"]

/-- The faults of a value that should be a list of such texts. -/
def textListFaults : Json.Value → List FormFault
  | .array items => items.flatMap textFaults
  | value => [.wrongType value "array"]

/-- The faults of a value that should be a record. -/
def recordFaults : Json.Value → List FormFault
  | .object members =>
      let className := member? "class" members
      let methods := member? "methods" members
      className.toList.flatMap textFaults ++
      methods.toList.flatMap textListFaults ++
      (if className.isSome then [] else [.missing "class"]) ++
      (if methods.isSome then [] else [.missing "methods"])
  | value => [.wrongType value "object"]

/-- The faults of a value that should be target data. -/
def faults : Json.Value → List FormFault
  | .array items => items.flatMap recordFaults
  | value => [.wrongType value "array"]

end TargetForm

namespace ClassTarget

/-- What a value is, where something else was expected. -/
def found : Json.Value → Json.Found
  | .null => .null
  | .bool value => .bool value
  | .number value => .number value
  | .string value => .string value
  | .array _ => .array
  | .object _ => .object

/-- Read a text. -/
def readText : Json.Value → Except Json.ReadError String
  | .string text => .ok text
  | value => .error (.wrongType (found value) "a string")

/-- Read a list of texts. -/
def readTexts : Json.Value → Except Json.ReadError (List String)
  | .array items => items.mapM readText
  | value => .error (.wrongType (found value) "a sequence")

/-- Read a member that has to be there. -/
def readMember {α : Type} (read : Json.Value → Except Json.ReadError α) (key : String)
    (members : List (String × Json.Value)) : Except Json.ReadError α :=
  match TargetForm.member? key members with
  | some value => read value
  | none => .error (.missingField key)

/-- Read a record from an object, or from an array with the members in order. -/
def ofValue : Json.Value → Except Json.ReadError ClassTarget
  | .object members => do
      let className ← readMember readText "class" members
      let methods ← readMember readTexts "methods" members
      return ⟨className, methods⟩
  | .array [className, methods] => do
      return ⟨← readText className, ← readTexts methods⟩
  | .array items => .error (.wrongLength items.length "struct ClassTarget with 2 elements")
  | value => .error (.wrongType (found value) "struct ClassTarget")

/-- Read a list of records. -/
def listOfValue : Json.Value → Except Json.ReadError (List ClassTarget)
  | .array items => items.mapM ofValue
  | value => .error (.wrongType (found value) "a sequence")

end ClassTarget

end CallRedirect
