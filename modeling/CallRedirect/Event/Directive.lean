import CallRedirect.Event

/-!
# Directives

A directive sets the most verbose level for the events whose origin starts with
its target; it may ask for values of certain names, too.  Of the directives that
fit an event the most specific one decides: the one with the longest target, and
then the one with the most names.
-/

namespace CallRedirect

/-- A directive: the least severe level that is logged, if any is. -/
structure Directive where
  target : Option String
  names : List String
  level : Option Level
  deriving DecidableEq, Repr

namespace Directive

/-- Whether a directive fits an event. -/
def fits (directive : Directive) (event : Event) : Bool :=
  (match directive.target with
    | some target => event.origin.startsWith target
    | none => true) &&
  directive.names.all (fun name =>
    name = "message" || event.fields.any (fun field => field.1 = name))

/-- How specific a directive is: the length of its target and the number of names. -/
def specificity (directive : Directive) : Nat × Nat :=
  match directive.target with
  | some target => (target.utf8ByteSize + 1, directive.names.length)
  | none => (0, directive.names.length)

/-- Whether one directive is looked at before another. -/
def precedes (first second : Directive) : Bool :=
  let a := first.specificity
  let b := second.specificity
  if a.1 ≠ b.1 then b.1 < a.1
  else if a.2 ≠ b.2 then b.2 < a.2
  else if first.target ≠ second.target then second.target.getD "" < first.target.getD ""
  else second.names < first.names

/-- Put a directive in its place; it replaces one that fits the same events. -/
def insert (directive : Directive) : List Directive → List Directive
  | [] => [directive]
  | other :: others =>
      if other.target = directive.target ∧ other.names = directive.names then
        directive :: others
      else if directive.precedes other then directive :: other :: others
      else other :: insert directive others

end Directive

end CallRedirect
