import CallRedirect.Event.DirectiveText

/-!
# Choosing what is logged

A filter is a list of directives, divided by commas.  Of the directives that fit an
event the most specific one decides.  An event that no directive fits is not
logged.
-/

namespace CallRedirect

/-- What is logged: directives, the most specific first. -/
abbrev EventFilter := List Directive

namespace EventFilter

/-- The filter that logs events up to a level. -/
def upTo (level : Level) : EventFilter := [⟨none, [], some level⟩]

/-- Read a filter; it is faulty if one of its directives is. -/
def read? (text : String) : Option EventFilter := do
  let parts := (text.toList.splitOn ',').filter (fun part => ! part.isEmpty)
  let directives ← parts.mapM Directive.read?
  return (directives.filterMap id).foldl (fun sorted d => d.insert sorted) []

/-- The filter of a setting.  If there is no setting, or a faulty one, events up
to a level are logged. -/
def ofSetting (setting : Option String) (level : Level) : EventFilter :=
  (setting.bind read?).getD (upTo level)

/-- Whether an event is logged. -/
def allows (filter : EventFilter) (event : Event) : Bool :=
  match filter.find? (fun directive => directive.fits event) with
  | some directive =>
    match directive.level with
    | some level => event.level.verbosity ≤ level.verbosity
    | none => false
  | none => false

end EventFilter

end CallRedirect
