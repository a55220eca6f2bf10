import CallRedirect.Text.Letter
import CallRedirect.Text.Pattern.CharSet

/-!
# Patterns

A pattern is a regular expression: characters, sets of characters, edges, groups,
repetitions and alternatives.  A group may have a name, which must be its own, and
it may change the mode; a change that stands alone holds up to the end of the group
around it.  What is repeated stands before the sign of its repetition.

Here it only counts whether a text is a pattern.  Repetitions whose bounds are
given in braces are left out, so an opening brace has to be escaped.
-/

namespace CallRedirect.Pattern

/-- A place in a pattern: the mode there and the modes to come back to when groups
are closed, innermost first, whether what stands before can be repeated, and the
names of groups so far. -/
structure Place where
  mode : Mode
  outer : List Mode
  repeatable : Bool
  names : List (List Char)
  deriving DecidableEq, Repr

/-- The letters that change the mode, and the hyphen before those that turn a mode
off. -/
def modeLetters : List Char := "imsUuRx-".toList

/-- Whether letters that change the mode are well-formed: each is there once, and
the hyphen is not the last one. -/
def areModeLetters (letters : List Char) : Bool :=
  letters.all modeLetters.contains && decide letters.Nodup && letters.getLast? ≠ some '-'

/-- Whether letters turn one mode on or off; without it in them it stays. -/
def switched (letter : Char) (letters : List Char) (before : Bool) : Bool :=
  if letters.contains letter then (letters.takeWhile (· ≠ '-')).contains letter else before

/-- The mode behind letters that change it. -/
def Mode.change (mode : Mode) (letters : List Char) : Mode :=
  ⟨switched 'x' letters mode.spaced, ! switched 'u' letters (! mode.bytes)⟩

/-- Whether a text is the name of a group. -/
def isGroupName : List Char → Bool
  | [] => false
  | first :: others =>
      (first = '_' || Letter.isLetter first) &&
        others.all (fun c => "_.[]".toList.contains c || Letter.isAlphanumeric c)

namespace Place

/-- The start of a pattern. -/
def start : Place := ⟨.initial, [], false, []⟩

/-- The place behind something that can be repeated, or cannot. -/
def behind (place : Place) (repeatable : Bool) : Place := { place with repeatable }

/-- The place inside of a group that opens. -/
def enter (place : Place) (mode : Mode) : Place :=
  { place with mode, outer := place.mode :: place.outer, repeatable := false }

/-- The place behind a group that closes, if one is open. -/
def leave? (place : Place) : Option Place :=
  match place.outer with
  | [] => none
  | mode :: outer => some { place with mode, outer, repeatable := true }

/-- Enter a group whose name starts the text. -/
def enterNamed? (place : Place) (text : List Char) : Option (Place × List Char) :=
  let name := text.takeWhile (· ≠ '>')
  match text.dropWhile (· ≠ '>') with
  | [] => none
  | _ :: rest =>
      if isGroupName name && ! place.names.contains name then
        some ({ place.enter place.mode with names := name :: place.names }, rest)
      else none

/-- Change the mode by the letters that start the text, for a group or for the rest
of the group around it. -/
def changeMode? (place : Place) (text : List Char) : Option (Place × List Char) :=
  let isLetter (c : Char) : Bool := c ≠ ':' && c ≠ ')'
  let letters := text.takeWhile isLetter
  let mode := place.mode.change letters
  if ! areModeLetters letters then none
  else
    match text.dropWhile isLetter with
    | ':' :: rest => some (place.enter mode, rest)
    | ')' :: rest =>
        if letters.isEmpty then none else some ({ place with mode, repeatable := false }, rest)
    | _ => none

/-- Read the start of a group behind its opening bracket. -/
def openGroup? (place : Place) (text : List Char) : Option (Place × List Char) :=
  match place.mode.skip text with
  | '?' :: 'P' :: '<' :: rest => place.enterNamed? rest
  | '?' :: '<' :: rest => place.enterNamed? rest
  | '?' :: rest => place.changeMode? rest
  | rest => some (place.enter place.mode, rest)

/-- Read the part of a pattern that starts with a character. -/
def step? (place : Place) (c : Char) (text : List Char) : Option (Place × List Char) :=
  match c with
  | '(' => place.openGroup? text
  | ')' => place.leave?.map (·, text)
  | '|' => some (place.behind false, text)
  | '[' => (skipSet? place.mode text).map (place.behind true, ·)
  | '*' | '+' | '?' =>
    if ! place.repeatable then none
    else
      match text with
      | '?' :: rest => some (place.behind true, rest)
      | _ => some (place.behind true, text)
  | '\x7b' => none
  | '.' => if place.mode.bytes then none else some (place.behind true, text)
  | '\\' => do
      let (atom, rest) ← readEscape? place.mode text
      if atom.fits place.mode then return (place.behind true, rest) else none
  | _ => some (place.behind true, text)

/-- Read a pattern to its end, in at most `fuel` steps; whether it is one. -/
def reads : Nat → Place → List Char → Bool
  | 0, _, _ => false
  | fuel + 1, place, text =>
    match place.mode.skip text with
    | [] => place.outer.isEmpty
    | c :: rest =>
      match place.step? c rest with
      | some (next, rest) => reads fuel next rest
      | none => false

end Place

end Pattern

/-- Whether a text is a pattern.  Every step takes a character. -/
def isPattern (text : List Char) : Bool :=
  Pattern.Place.start.reads (text.length + 1) text

end CallRedirect
