import CallRedirect.Artifact
import CallRedirect.Sarif.Result

/-!
# The report document

A report is a SARIF document with one run: the tool, how it was invoked, the
results in order and, if there are any, the artifacts.
-/

namespace CallRedirect.Sarif

/-- The name that the program goes by. -/
def toolName : String := "redirectors"

/-- The version of the program. -/
def toolVersion : String := "0.1.0"

/-- The address of the document's schema. -/
def schemaAddress : String :=
  "https://schemastore.azurewebsites.net/schemas/json/sarif-2.1.0.json"

/-- How the program was invoked, and whether it reached its goal. -/
structure Invocation where
  successful : Bool
  arguments : Option (List String)
  deriving DecidableEq, Repr

/-- An invocation as the report shows it. -/
def Invocation.json (invocation : Invocation) : Json.Value :=
  .ofMembers <|
    ("executionSuccessful", .bool invocation.successful) ::
    match invocation.arguments with
    | none => []
    | some arguments => [
        ("arguments", .ofStrings arguments),
        ("commandLine", .string (" ".intercalate arguments))]

/-- The report document. -/
def document (artifacts : List Artifact) (results : List Result) (invocation : Invocation) :
    Json.Value :=
  let run : List (String × Json.Value) := [
    ("tool", .ofMembers [("driver", .ofMembers [
      ("name", .string toolName),
      ("version", .string toolVersion)])]),
    ("invocations", .array [invocation.json]),
    ("results", .array (results.map (·.json)))]
  let table : List (String × Json.Value) :=
    if artifacts.isEmpty then [] else [("artifacts", .array (artifacts.map (·.json)))]
  .ofMembers [
    ("$schema", .string schemaAddress),
    ("runs", .array [.ofMembers (run ++ table)]),
    ("version", .string "2.1.0")]

end CallRedirect.Sarif
