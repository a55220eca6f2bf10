import CallRedirect.Text.Pattern.Escape

/-!
# Sets of characters in patterns

A set stands in brackets.  Its items are characters, ranges, escapes, named sets
and other sets; it may be turned around, and it may be put together from two by an
operation.  Hyphens at its start and a closing bracket behind its opening one are
characters.

Of a set only one thing is kept: whether it has anything beyond ASCII.  A set of
bytes must not.  It is enough for every operation, because without named sets that
are turned around the items of a set of bytes are ASCII, and what is beyond it is
there as a whole or not at all.
-/

namespace CallRedirect.Pattern

/-- The operations on sets. -/
inductive SetOperation
  | intersection | difference | symmetricDifference
  deriving DecidableEq, Repr

/-- Whether something is in what an operation makes of two sets. -/
def SetOperation.holds : SetOperation → Bool → Bool → Bool
  | intersection, first, second => first && second
  | difference, first, second => first && ! second
  | symmetricDifference, first, second => first != second

/-- A set that is being read: whether it is turned around, the operation that waits
for the operand being read, with its first operand, and whether that operand so far
has anything beyond ASCII. -/
structure OpenSet where
  negated : Bool
  waiting : Option (SetOperation × Bool)
  beyond : Bool
  deriving DecidableEq, Repr

namespace OpenSet

/-- Add an item. -/
def add (set : OpenSet) (beyond : Bool) : OpenSet := { set with beyond := set.beyond || beyond }

/-- Carry out the operation that waits. -/
def value (set : OpenSet) : Bool :=
  match set.waiting with
  | some (operation, first) => operation.holds first set.beyond
  | none => set.beyond

/-- Go on with the second operand of an operation. -/
def operate (set : OpenSet) (operation : SetOperation) : OpenSet :=
  ⟨set.negated, some (operation, set.value), false⟩

/-- Whether the set has anything beyond ASCII. -/
def isBeyond (set : OpenSet) : Bool := set.value != set.negated

end OpenSet

/-- Open a set behind its opening bracket. -/
def openSet (mode : Mode) (text : List Char) : OpenSet × List Char :=
  match mode.skip text with
  | '^' :: rest => (⟨true, none, false⟩, rest)
  | rest => (⟨false, none, false⟩, rest)

/-- The names of sets. -/
def setNames : List String :=
  ["alnum", "alpha", "ascii", "blank", "cntrl", "digit", "graph", "lower", "print", "punct",
    "space", "upper", "word", "xdigit"]

/-- Read a named set behind its opening bracket; whether it is turned around. -/
def readNamedSet? : List Char → Option (Bool × List Char)
  | ':' :: text =>
    let (negated, text) :=
      match text with
      | '^' :: rest => (true, rest)
      | _ => (false, text)
    match text.dropWhile (· ≠ ':') with
    | ':' :: ']' :: rest =>
        if setNames.contains (String.ofList (text.takeWhile (· ≠ ':'))) then some (negated, rest)
        else none
    | _ => none
  | _ => none

/-- Read a character or an escape of a set. -/
def readItem? (mode : Mode) (text : List Char) : Option (Atom × List Char) := do
  let (atom, rest) ←
    match text with
    | [] => none
    | '\\' :: rest => readEscape? mode rest
    | c :: rest => some (.character c, rest)
  if atom.fitsSet mode then return (atom, rest) else none

/-- Read an item of a set, which may be a range.  A hyphen before a closing bracket
or another hyphen makes no range. -/
def readRange? (mode : Mode) (text : List Char) : Option (List Char) := do
  let (first, rest) ← readItem? mode text
  match mode.skip rest with
  | '-' :: behind =>
    match mode.skip behind with
    | ']' :: _ => return '-' :: behind
    | '-' :: _ => return '-' :: behind
    | upper => do
        let (last, rest) ← readItem? mode upper
        if (← first.character?) ≤ (← last.character?) then return rest else none
  | rest => return rest

/-- How far a set has been read. -/
inductive SetProgress
  | opened | hyphens | inside
  deriving DecidableEq, Repr

/-- Read on in a set that is inside of others, up to the bracket that closes the
outermost one, in at most `fuel` steps. -/
def readSet? (mode : Mode) :
    Nat → SetProgress → OpenSet → List OpenSet → List Char → Option (List Char)
  | 0, _, _, _, _ => none
  | fuel + 1, progress, set, outer, text =>
    match progress, mode.skip text with
    | .opened, '-' :: rest => readSet? mode fuel .hyphens set outer rest
    | .hyphens, '-' :: rest => readSet? mode fuel .hyphens set outer rest
    | .opened, ']' :: rest => readSet? mode fuel .inside set outer rest
    | _, ']' :: rest =>
      if mode.bytes && set.isBeyond then none
      else
        match outer with
        | [] => some rest
        | enclosing :: others =>
            readSet? mode fuel .inside (enclosing.add set.isBeyond) others rest
    | _, '[' :: rest =>
      match readNamedSet? rest with
      | some (negated, behind) => readSet? mode fuel .inside (set.add negated) outer behind
      | none =>
        let (inner, behind) := openSet mode rest
        readSet? mode fuel .opened inner (set :: outer) behind
    | _, '&' :: '&' :: rest => readSet? mode fuel .inside (set.operate .intersection) outer rest
    | _, '-' :: '-' :: rest => readSet? mode fuel .inside (set.operate .difference) outer rest
    | _, '~' :: '~' :: rest =>
        readSet? mode fuel .inside (set.operate .symmetricDifference) outer rest
    | _, item => do
        let rest ← readRange? mode item
        readSet? mode fuel .inside set outer rest

/-- Read a set behind its opening bracket.  Every step takes a character. -/
def skipSet? (mode : Mode) (text : List Char) : Option (List Char) :=
  let (set, rest) := openSet mode text
  readSet? mode (rest.length + 1) .opened set [] rest

end CallRedirect.Pattern
