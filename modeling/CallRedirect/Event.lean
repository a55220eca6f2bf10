import CallRedirect.CallSite
import CallRedirect.MethodId

/-!
# Log events

Everything worth a line in the log is an event.  An event has a level, comes
from one part of the program, and shows a message and named values.
-/

namespace CallRedirect

/-- The severities of log events, least verbose first. -/
inductive Level
  | error | warn | info | debug | trace
  deriving DecidableEq, Repr, Inhabited

namespace Level

/-- The name of a level in the log. -/
def name : Level → String
  | error => "ERROR"
  | warn => "WARN"
  | info => "INFO"
  | debug => "DEBUG"
  | trace => "TRACE"

/-- How verbose a level is; errors are the least verbose. -/
def verbosity : Level → Nat
  | error => 1
  | warn => 2
  | info => 3
  | debug => 4
  | trace => 5

end Level

/-- A value shown with an event. -/
inductive FieldValue
  | text (value : String)
  | number (value : Nat)
  deriving DecidableEq, Repr

/-- A value as the log shows it. -/
def FieldValue.shown : FieldValue → String
  | text value => value
  | number value => toString value

/-- What the program logs. -/
inductive Event
  | builtinRules
  | ruleRegistered (rule : String) (targets : Nat)
  | ruleSetReady (rules : Nat)
  | classLifted (className : String) (methods : Nat)
  | nothingRedirected (className : String)
  | methodMissing (rule className : String) (method : MethodId)
  | callRedirected (rule className method : String) (matched replacement : CallSite)
  deriving DecidableEq, Repr

namespace Event

/-- Only a missing method is an error. -/
def level : Event → Level
  | methodMissing .. => .error
  | _ => .debug

/-- The part of the program that an event comes from. -/
def origin : Event → String
  | builtinRules => "redirectors::rules"
  | ruleRegistered .. => "redirectors::rules"
  | ruleSetReady _ => "redirectors"
  | classLifted .. => "redirectors::scan"
  | nothingRedirected _ => "redirectors"
  | methodMissing .. => "redirectors::redirect"
  | callRedirected .. => "redirectors::redirect"

/-- The text for a method that a rule names and its class lacks, with the word
that it starts with. -/
def missingText (lead rule className : String) (method : MethodId) : String :=
  lead ++ " to redirect method call for " ++ rule ++ ": method " ++ method.text ++
    " not found in class " ++ className

/-- The message of an event. -/
def message : Event → String
  | builtinRules => "gathering built-in method redirector rules"
  | ruleRegistered .. => "registered redirection rule"
  | ruleSetReady _ => "rule set ready"
  | classLifted .. => "lifted class"
  | nothingRedirected _ => "no call sites redirected"
  | methodMissing rule className method => missingText "failed" rule className method
  | callRedirected _ className method matched replacement =>
      "redirecting method call " ++ matched.name ++ matched.descriptor ++ " to " ++
        replacement.name ++ replacement.descriptor ++ " inside of " ++ className ++ "." ++ method

/-- The named values of an event, in the order in which they are shown. -/
def fields : Event → List (String × FieldValue)
  | builtinRules => []
  | ruleRegistered rule targets => [("rule", .text rule), ("targets", .number targets)]
  | ruleSetReady rules => [("rules", .number rules)]
  | classLifted className methods => [("class", .text className), ("methods", .number methods)]
  | nothingRedirected className => [("class", .text className)]
  | methodMissing rule className method =>
      [("rule", .text rule), ("method", .text method.text), ("class", .text className)]
  | callRedirected rule _ _ matched _ =>
      [("rule", .text rule), ("offset", .number matched.offset.toNat)]

end Event

end CallRedirect
