import CallRedirect.ClassTarget.Loading
import CallRedirect.Descriptor
import CallRedirect.Event.Logged
import CallRedirect.Rule.Builtin
import CallRedirect.Rule.Config

/-!
# Loading rules

The entries of a rule file become rules one after the other.  Of an entry the
descriptor is checked first, then its targets are loaded, then the descriptor of
its replacement is checked, if there is one.  Paths of target files start from
the directory of the rule file.  The first fault ends the loading; rules loaded
before it have been logged by then.
-/

namespace CallRedirect

/-- Why an entry does not become a rule. -/
inductive EntryError
  | descriptor (rule : String) (cause : MalformedDescriptor)
  | targets (cause : TargetError)
  | replacement (rule : String) (cause : MalformedDescriptor)
  deriving Repr

/-- Why a rule file is not loaded. -/
inductive RuleError
  | unreadable (path : String) (cause : FileError)
  | malformed (path : String) (cause : Json.ReadError)
  | entry (path : String) (cause : EntryError)
  deriving Repr

namespace RuleEntry

/-- The targets of an entry of a rule file in the directory `base`. -/
def loadTargets (system : FileSystem) (base : String) (entry : RuleEntry) :
    Except TargetError (List ClassTarget) :=
  match entry.targets with
  | .path path => ClassTarget.load system (Path.join base path)
  | .inline value => ClassTarget.fromValue value entry.name

/-- Check the descriptor of a replacement, if there is one. -/
def checkReplacement (entry : RuleEntry) : Except MalformedDescriptor Unit :=
  match entry.redirect.descriptor? with
  | some descriptor => validateDescriptor descriptor
  | none => .ok ()

/-- The rule of an entry of a rule file in the directory `base`. -/
def load (system : FileSystem) (base : String) (entry : RuleEntry) : Except EntryError Rule := do
  (validateDescriptor entry.descriptor).mapError (.descriptor entry.name)
  let targets ← (entry.loadTargets system base).mapError .targets
  entry.checkReplacement.mapError (.replacement entry.name)
  return {
    name := entry.name
    kind := entry.kind
    method := entry.method
    descriptor := entry.descriptor
    targets := targets
    redirect := entry.redirect
  }

end RuleEntry

namespace RuleSet

/-- The rules of the entries of a rule file in the directory `base`. -/
def ofEntries (system : FileSystem) (base : String) : List RuleEntry → Logged EntryError RuleSet
  | [] => return []
  | entry :: entries => do
      let rule ← .ofExcept (entry.load system base)
      Logged.log [rule.registeredEvent]
      let rules ← ofEntries system base entries
      return rule :: rules

/-- The rules of a rule file. -/
def load (system : FileSystem) (path : String) : Logged RuleError RuleSet := do
  let text ← .ofExcept ((system.readText path).mapError (.unreadable path))
  let entries ← .ofExcept ((RuleConfig.parse text).mapError (.malformed path))
  (ofEntries system (Path.parent path) entries).mapError (.entry path)

end RuleSet

end CallRedirect
