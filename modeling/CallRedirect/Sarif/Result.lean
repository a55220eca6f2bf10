import CallRedirect.Json.Value
import CallRedirect.Redirection

/-!
# Results

A replaced call is reported at the method that contains it, a missing method at
the class that lacks it.  The rule id of a replaced call is the name of its rule, and
all missing methods have one id in common.  A rule may bear that id as its name, so
it is the place that tells the two kinds of results apart, a function or a type.
-/

namespace CallRedirect.Sarif

/-- The declaration that a result is about. -/
inductive Place
  | function (className method descriptor : String)
  | type (className : String)
  deriving DecidableEq, Repr

namespace Place

/-- The name of a place. -/
def name : Place → String
  | function className method descriptor => className ++ "." ++ method ++ descriptor
  | type className => className

/-- The word for the kind of a place. -/
def kind : Place → String
  | function .. => "function"
  | type _ => "type"

end Place

/-- One finding: what happened where, in which artifact. -/
structure Result where
  ruleId : String
  message : String
  place : Place
  artifact : Int
  deriving DecidableEq, Repr

/-- The rule id of missing methods. -/
def missingMethodRuleId : String := "MISSING_METHOD"

namespace Result

/-- The result for a replaced call. -/
def ofRedirection (className : String) (artifact : Int) (redirection : Redirection) : Result where
  ruleId := redirection.rule
  message :=
    "Redirected " ++ redirection.matched.name ++ redirection.matched.descriptor ++ " to " ++
      redirection.replacement.owner ++ "." ++ redirection.replacement.name ++
      redirection.replacement.descriptor ++ " at offset " ++
      toString redirection.matched.offset.toNat
  place := .function className redirection.method redirection.descriptor
  artifact := artifact

/-- The result for a missing method. -/
def ofMissing (className : String) (artifact : Int) (missing : MissingMethod) : Result where
  ruleId := missingMethodRuleId
  message := Event.missingText "Failed" missing.rule className missing.method
  place := .type className
  artifact := artifact

/-- The results for one class: replaced calls first, then missing methods. -/
def ofReport (className : String) (artifact : Int) (report : Report) : List Result :=
  report.redirections.map (ofRedirection className artifact) ++
    report.missing.map (ofMissing className artifact)

/-- A result as the report shows it. -/
def json (result : Result) : Json.Value :=
  .ofMembers [
    ("ruleId", .string result.ruleId),
    ("message", .ofMembers [("text", .string result.message)]),
    ("locations", .array [.ofMembers [
      ("physicalLocation", .ofMembers [
        ("artifactLocation", .ofMembers [("index", .number (.integer result.artifact))])]),
      ("logicalLocations", .array [.ofMembers [
        ("name", .string result.place.name),
        ("kind", .string result.place.kind)]])]])]

end Result

end CallRedirect.Sarif
