/-!
# Failures

A failure is explained by a chain of texts: the outermost says what was being
done, each further one why that did not work.  The fault at the end of the
chain is of one of a few kinds.
-/

namespace CallRedirect

/-- The kind of fault that a failure goes back to. -/
inductive FaultKind
  | json | file | archive | other
  deriving DecidableEq, Repr

/-- Why something failed: texts from the outermost to the innermost. -/
structure Failure where
  texts : List String
  kind : FaultKind
  deriving DecidableEq, Repr

namespace Failure

/-- A failure with one text. -/
def ofText (text : String) (kind : FaultKind) : Failure := ⟨[text], kind⟩

/-- A failure seen from further outside. -/
def within (failure : Failure) (context : String) : Failure :=
  { failure with texts := context :: failure.texts }

/-- The texts of a failure on one line. -/
def line (failure : Failure) : String := ": ".intercalate failure.texts

/-- The lines of a text, the first one behind `lead` and the others behind `indent`. -/
def indented (lead indent text : String) : List String :=
  match text.splitOn "\n" with
  | [] => [lead]
  | first :: others => (lead ++ first) :: others.map (indent ++ ·)

/-- The lines of the causes of a failure, numbered if there are several. -/
def causeLines : List String → List String
  | [cause] => indented "    " "    " cause
  | causes => causes.zipIdx.flatMap fun (cause, index) =>
      indented ("    " ++ toString index ++ ": ") "       " cause

/-- A failure as the program prints it: the outermost text, and the others below
it as causes. -/
def report (failure : Failure) : List String :=
  match failure.texts with
  | [] => []
  | [text] => indented "Error: " "" text
  | text :: causes => indented "Error: " "" text ++ ["", "Caused by:"] ++ causeLines causes

end Failure

end CallRedirect
