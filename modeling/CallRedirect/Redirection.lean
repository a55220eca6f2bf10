import CallRedirect.Class
import CallRedirect.Event
import CallRedirect.Rule

/-!
# Redirecting the calls of a class

A class goes through the rules one by one.  A rule looks at the methods that its
targets declare for the class and, once for every such target, at all synthetic
methods.  In each of them the matching calls are collected first and then
replaced one for one, so positions stay valid while calls change.  A declared
method that the class lacks is reported, and the rule goes on to the next one.

The changed class comes with a report of what was done and with the log.
-/

namespace CallRedirect

/-- A call that was replaced: by which rule, in which method, which call, and by
which one.  The replacement is the call that the rule built. -/
structure Redirection where
  rule : String
  method : String
  descriptor : String
  matched : CallSite
  replacement : CallSite
  deriving DecidableEq, Repr, Inhabited

/-- A method that a rule looked for and the class lacks. -/
structure MissingMethod where
  rule : String
  method : MethodId
  deriving DecidableEq, Repr, Inhabited

/-- What was done to one class. -/
structure Report where
  redirections : List Redirection
  missing : List MissingMethod
  deriving DecidableEq, Repr, Inhabited

namespace Report

/-- The report of having done nothing. -/
def empty : Report := ⟨[], []⟩

/-- Whether nothing was done and nothing was missing. -/
def isEmpty (report : Report) : Bool :=
  report.redirections.isEmpty && report.missing.isEmpty

end Report

/-- A class on its way through the rules. -/
structure Pass where
  result : Class
  report : Report
  events : List Event
  deriving DecidableEq, Repr

namespace Class

/-- The first method with an identifier, with its position. -/
def method? (cls : Class) (id : MethodId) : Option (Nat × Method) := do
  let index ← cls.methodIndex? id.name id.descriptor
  let method ← cls.methods[index]?
  return (index, method)

/-- The identifiers of the synthetic methods, in order. -/
def syntheticIds (cls : Class) : List MethodId :=
  (cls.methods.filter (·.isSynthetic)).map (fun method => ⟨method.name, method.descriptor⟩)

end Class

namespace Rule

/-- The methods that a rule looks at in a class: for every target that names the
class, the declared ones and then the synthetic ones. -/
def scannedMethods (rule : Rule) (cls : Class) : List MethodId :=
  (rule.targetsFor cls.name).flatMap fun target =>
    target.methods.map MethodId.parse ++ cls.syntheticIds

/-- The calls of a method body that a rule matches, with their positions. -/
def matchingCalls (rule : Rule) (method : Method) : List (Nat × CallSite) :=
  method.code.zipIdx.filterMap fun (instruction, index) =>
    match instruction.call with
    | some call => if rule.matchesCall instruction.opcode call then some (index, call) else none
    | none => none

/-- The method with every matching call replaced. -/
def redirectCalls (rule : Rule) (method : Method) : Method :=
  (rule.matchingCalls method).foldl
    (fun method (index, call) => method.replaceCall index (rule.redirect.build call)) method

/-- What replacing the matching calls of a method does, in order. -/
def redirectionsIn (rule : Rule) (method : Method) : List Redirection :=
  (rule.matchingCalls method).map fun (_, call) => {
    rule := rule.name
    method := method.name
    descriptor := method.descriptor
    matched := call
    replacement := rule.redirect.build call
  }

end Rule

namespace Redirection

/-- The event of replacing a call in a class. -/
def event (redirection : Redirection) (className : String) : Event :=
  .callRedirected redirection.rule className redirection.method
    redirection.matched redirection.replacement

end Redirection

namespace MissingMethod

/-- The event of not finding a method in a class. -/
def event (missing : MissingMethod) (className : String) : Event :=
  .methodMissing missing.rule className missing.method

end MissingMethod

namespace Pass

/-- A class that no rule has looked at yet. -/
def start (cls : Class) : Pass := ⟨cls, .empty, []⟩

/-- Let a rule look at one method. -/
def visit (rule : Rule) (state : Pass) (id : MethodId) : Pass :=
  match state.result.method? id with
  | none =>
      let missing : MissingMethod := ⟨rule.name, id⟩
      { state with
        report := { state.report with missing := state.report.missing ++ [missing] }
        events := state.events ++ [missing.event state.result.name] }
  | some (index, method) =>
      let redirections := rule.redirectionsIn method
      { result := state.result.modifyMethod index rule.redirectCalls
        report := { state.report with
          redirections := state.report.redirections ++ redirections }
        events := state.events ++ redirections.map (·.event state.result.name) }

/-- Let a rule look at all its methods of the class, which are settled before
the first of them changes. -/
def applyRule (state : Pass) (rule : Rule) : Pass :=
  (rule.scannedMethods state.result).foldl (visit rule) state

end Pass

/-- Let all rules look at a class, in order. -/
def RuleSet.redirectClass (rules : RuleSet) (cls : Class) : Pass :=
  rules.foldl Pass.applyRule (Pass.start cls)

end CallRedirect
