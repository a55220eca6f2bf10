/-!
# Command lines

The command line has options with a value, which follows as the next argument or
behind an equals sign, and flags without one.  Arguments are taken from left to
right.  An option waits for its value, and is only settled when the next option
or flag comes, or at the end; so an argument that is not known is the first thing
to be found wrong.
-/

namespace CallRedirect

/-- Why a command line does not lead to a run.  Asking for help or for the version
are such reasons, too. -/
inductive UsageError
  | unknownArgument
  | missingRequiredArgument
  | invalidValue
  | argumentConflict
  | tooManyValues
  | displayHelp
  | displayVersion
  deriving DecidableEq, Repr

namespace UsageError

/-- The name of a reason. -/
def name : UsageError → String
  | unknownArgument => "UnknownArgument"
  | missingRequiredArgument => "MissingRequiredArgument"
  | invalidValue => "InvalidValue"
  | argumentConflict => "ArgumentConflict"
  | tooManyValues => "TooManyValues"
  | displayHelp => "DisplayHelp"
  | displayVersion => "DisplayVersion"

end UsageError

/-- What the command line asks for. -/
structure Settings where
  input : String
  rules : Option String
  output : Option String
  quiet : Bool
  verbose : Bool
  timing : Bool
  deriving DecidableEq, Repr

namespace Usage

/-- The options that have a value. -/
inductive Parameter
  | input | rules | output
  deriving DecidableEq, Repr

/-- The flags. -/
inductive Flag
  | quiet | verbose | timing | help | version
  deriving DecidableEq, Repr

/-- One argument by its form. -/
inductive Argument
  | parameter (which : Parameter) (value : Option String)
  | flag (which : Flag) (value : Option String)
  | escape
  | plain
  | unknown
  deriving DecidableEq, Repr

namespace Argument

/-- The argument of a name behind two dashes. -/
def named (name : String) (value : Option String) : Argument :=
  match name with
  | "input" => parameter .input value
  | "rules" => parameter .rules value
  | "output" => parameter .output value
  | "quiet" => flag .quiet value
  | "verbose" => flag .verbose value
  | "timing" => flag .timing value
  | "help" => flag .help value
  | "version" => flag .version value
  | _ => unknown

/-- The form of an argument.  A single dash is an ordinary text. -/
def ofText (text : String) : Argument :=
  match text.toList with
  | ['-', '-'] => escape
  | '-' :: '-' :: rest =>
      let name := String.ofList (rest.takeWhile (· ≠ '='))
      match rest.dropWhile (· ≠ '=') with
      | [] => named name none
      | _ :: value => named name (some (String.ofList value))
  | '-' :: 'h' :: _ => flag .help none
  | '-' :: 'V' :: _ => flag .version none
  | '-' :: _ :: _ => unknown
  | _ => plain

end Argument

/-- What has been settled so far. -/
structure Draft where
  input : Option String
  rules : Option String
  output : Option String
  quiet : Bool
  verbose : Bool
  timing : Bool

namespace Draft

/-- Nothing settled. -/
def blank : Draft := ⟨none, none, none, false, false, false⟩

/-- The value settled for an option. -/
def value? (draft : Draft) : Parameter → Option String
  | .input => draft.input
  | .rules => draft.rules
  | .output => draft.output

/-- Settle an option: it needs a value, may be given once, and not the empty text. -/
def settle (draft : Draft) (which : Parameter) (value : Option String) :
    Except UsageError Draft :=
  match value with
  | none => .error .invalidValue
  | some text =>
    if (draft.value? which).isSome then .error .argumentConflict
    else if text.isEmpty then .error .invalidValue
    else
      match which with
      | .input => .ok { draft with input := some text }
      | .rules => .ok { draft with rules := some text }
      | .output => .ok { draft with output := some text }

/-- Raise a flag, which may be done once. -/
def raise (draft : Draft) : Flag → Except UsageError Draft
  | .quiet => if draft.quiet then .error .argumentConflict else .ok { draft with quiet := true }
  | .verbose =>
      if draft.verbose then .error .argumentConflict else .ok { draft with verbose := true }
  | .timing =>
      if draft.timing then .error .argumentConflict else .ok { draft with timing := true }
  | .help => .error .displayHelp
  | .version => .error .displayVersion

/-- The settings, if all that is needed is there and nothing contradicts. -/
def finish (draft : Draft) : Except UsageError Settings :=
  if draft.quiet && draft.verbose then .error .argumentConflict
  else
    match draft.input with
    | none => .error .missingRequiredArgument
    | some input =>
      .ok ⟨input, draft.rules, draft.output, draft.quiet, draft.verbose, draft.timing⟩

end Draft

/-- What has been read of a command line: what is settled, the option that is not
settled yet with its value, and whether only plain arguments may follow. -/
structure Progress where
  draft : Draft
  pending : Option (Parameter × Option String)
  trailing : Bool

namespace Progress

/-- Settle the option that is pending. -/
def resolve (progress : Progress) : Except UsageError Draft :=
  match progress.pending with
  | none => .ok progress.draft
  | some (which, value) => progress.draft.settle which value

/-- Read one more argument. -/
def step (progress : Progress) (text : String) : Except UsageError Progress :=
  if progress.trailing then .error .unknownArgument
  else
    match Argument.ofText text with
    | .escape => .ok { progress with trailing := true }
    | .unknown => .error .unknownArgument
    | .flag _ (some _) => .error .tooManyValues
    | .flag which none => do
        let draft ← progress.resolve
        return ⟨← draft.raise which, none, false⟩
    | .parameter which none => do
        return ⟨← progress.resolve, some (which, none), false⟩
    | .parameter which (some value) => do
        let draft ← progress.resolve
        return ⟨← draft.settle which (some value), none, false⟩
    | .plain =>
      match progress.pending with
      | some (which, none) => .ok { progress with pending := some (which, some text) }
      | _ => .error .unknownArgument

end Progress

/-- The settings that the arguments of a command line ask for. -/
def parse (arguments : List String) : Except UsageError Settings := do
  let progress ← arguments.foldlM Progress.step ⟨Draft.blank, none, false⟩
  (← progress.resolve).finish

end Usage

end CallRedirect
