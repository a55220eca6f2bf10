import CallRedirect.CallSite
import CallRedirect.ClassTarget

/-!
# Redirection rules

A rule matches calls by opcode, callee name and callee descriptor, in the
methods that its targets name, and says which call takes their place: a static
method that gets the receiver as its first argument, or another method of the
same owner.
-/

namespace CallRedirect

/-- What takes the place of a matched call.  A descriptor given here is taken
as it is; otherwise it follows from the matched call. -/
inductive Redirect
  | invokeStatic (owner name : String) (descriptor : Option String)
  | rename (name : String) (descriptor : Option String)
  deriving DecidableEq, Repr, Inhabited

/-- The type descriptor of an owner: an array type is written as its own
descriptor already, a class is named. -/
def receiverDescriptor (owner : String) : String :=
  if owner.toList.head? = some '[' then owner else "L" ++ owner ++ ";"

/-- The descriptor of a static method that takes over a call: a receiver becomes
the first parameter. -/
def staticDescriptor (call : CallSite) : String :=
  match call.kind with
  | .static => call.descriptor
  | _ =>
    let parameters :=
      match call.descriptor.toList with
      | '(' :: rest => String.ofList rest
      | _ => call.descriptor
    "(" ++ receiverDescriptor call.owner ++ parameters

namespace Redirect

/-- The call that takes the place of a matched one. -/
def build (redirect : Redirect) (matched : CallSite) : CallSite :=
  match redirect with
  | invokeStatic owner name descriptor => {
      owner := owner
      name := name
      descriptor := descriptor.getD (staticDescriptor matched)
      kind := .static
      offset := matched.offset
    }
  | rename name descriptor => {
      owner := matched.owner
      name := name
      descriptor := descriptor.getD matched.descriptor
      kind := matched.kind
      offset := matched.offset
    }

/-- The descriptor given for the replacement, if any. -/
def descriptor? : Redirect → Option String
  | invokeStatic _ _ descriptor => descriptor
  | rename _ descriptor => descriptor

@[simp] theorem offset_build (redirect : Redirect) (matched : CallSite) :
    (redirect.build matched).offset = matched.offset := by
  cases redirect <;> rfl

end Redirect

/-- A named mapping from one call signature to a replacement. -/
structure Rule where
  name : String
  kind : CallKind
  method : String
  descriptor : String
  targets : List ClassTarget
  redirect : Redirect
  deriving DecidableEq, Repr, Inhabited

namespace Rule

/-- Whether a rule applies to an invocation with this opcode and call. -/
def matchesCall (rule : Rule) (opcode : UInt8) (call : CallSite) : Bool :=
  opcode = rule.kind.opcode && call.name = rule.method && call.descriptor = rule.descriptor

/-- The targets of a rule that name a class. -/
def targetsFor (rule : Rule) (className : String) : List ClassTarget :=
  rule.targets.filter (fun target => target.className = className)

end Rule

/-- Rules in the order in which they apply. -/
abbrev RuleSet := List Rule

namespace RuleSet

/-- The names of the classes that some target names, sorted and without repetition. -/
def targetClasses (rules : RuleSet) : List String :=
  ((rules.flatMap (·.targets)).map (·.className)).mergeSort (· ≤ ·) |>.eraseReps

end RuleSet

end CallRedirect
