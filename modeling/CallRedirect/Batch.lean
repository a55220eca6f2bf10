import CallRedirect.Sarif.Result

/-!
# Redirecting the calls of many classes

Classes are taken one after the other, each on its own.  Only classes that
some rule names are looked at; a class to which nothing happened leaves nothing
but a line in the log.
-/

namespace CallRedirect

/-- What going through a list of classes led to. -/
structure Batch where
  results : List Sarif.Result
  candidates : Nat
  redirections : Nat
  missing : Nat
  events : List Event
  deriving DecidableEq, Repr

namespace Batch

/-- No class looked at yet. -/
def empty : Batch := ⟨[], 0, 0, 0, []⟩

/-- Let all rules look at one more class, if one of them names it. -/
def add (rules : RuleSet) (batch : Batch) (cls : Class) : Batch :=
  if cls.name ∈ rules.targetClasses then
    let done := rules.redirectClass cls
    let report := done.report
    { results := batch.results ++ Sarif.Result.ofReport done.result.name done.result.artifact report
      candidates := batch.candidates + 1
      redirections := batch.redirections + report.redirections.length
      missing := batch.missing + report.missing.length
      events := batch.events ++ done.events ++
        if report.isEmpty then [.nothingRedirected done.result.name] else [] }
  else batch

end Batch

/-- Let all rules look at classes, in order. -/
def RuleSet.redirectClasses (rules : RuleSet) (classes : List Class) : Batch :=
  classes.foldl (Batch.add rules) Batch.empty

end CallRedirect
