import CallRedirect.Text.Blank
import CallRedirect.Text.Hex

/-!
# Escapes of patterns

In a pattern a backslash gives the characters that follow it another meaning.  They
stand for a character, for a set of characters or for an edge: a place between two
characters.

A part of a pattern is about characters or about bytes.  One that is about bytes
must not fit a part of a character, so it is held to ASCII; edges of words, on the
other hand, are known to ASCII only.
-/

namespace CallRedirect.Pattern

/-- How a part of a pattern is read: whether blanks and comments are left out, and
whether it is about bytes. -/
structure Mode where
  spaced : Bool
  bytes : Bool
  deriving DecidableEq, Repr

/-- The mode that a pattern starts in. -/
def Mode.initial : Mode := ⟨false, false⟩

/-- Leave out blanks and comments, given whether the text starts in a comment.  A
comment goes from a number sign to the end of the line. -/
def skipBlanks (inComment : Bool) : List Char → List Char
  | [] => []
  | c :: text =>
      if inComment then skipBlanks (c ≠ '\n') text
      else if isBlank c then skipBlanks false text
      else if c = '#' then skipBlanks true text
      else c :: text

/-- Leave out what the mode does not count. -/
def Mode.skip (mode : Mode) (text : List Char) : List Char :=
  if mode.spaced then skipBlanks false text else text

/-- Whether a character is beyond ASCII. -/
def isBeyond (c : Char) : Bool := 0x80 ≤ c.toNat

/-- What a character or an escape of a pattern stands for. -/
inductive Atom
  | character (c : Char)
  | byte (c : Char)
  | set (negated : Bool)
  | category
  | edge (ofWord : Bool)
  deriving DecidableEq, Repr

/-- Whether an atom may be an item of a set. -/
def Atom.fitsSet (mode : Mode) : Atom → Bool
  | character c => ! mode.bytes || ! isBeyond c
  | byte c => ! mode.bytes || ! isBeyond c
  | set negated => ! mode.bytes || ! negated
  | category => ! mode.bytes
  | edge _ => false

/-- Whether an atom may stand outside of sets. -/
def Atom.fits (mode : Mode) : Atom → Bool
  | character _ => true
  | byte c => ! mode.bytes || ! isBeyond c
  | set negated => ! mode.bytes || ! negated
  | category => ! mode.bytes
  | edge ofWord => ! ofWord || mode.bytes

/-- The character that an atom stands for, if it stands for one. -/
def Atom.character? : Atom → Option Char
  | character c => some c
  | byte c => some c
  | _ => none

/-- Read `count` hexadecimal digits. -/
def readHex? (mode : Mode) (value : Nat) : Nat → List Char → Option (Nat × List Char)
  | 0, text => some (value, text)
  | count + 1, text =>
    match mode.skip text with
    | [] => none
    | c :: rest => do
        let digit ← hexDigit? c
        readHex? mode (16 * value + digit) count rest

/-- Read the number of a character in `count` hexadecimal digits. -/
def readCode? (mode : Mode) (count : Nat) (text : List Char) : Option (Char × List Char) := do
  let (value, rest) ← readHex? mode 0 count text
  if value.isValidChar then return (Char.ofNat value, rest) else none

/-- The letters of the general categories of characters. -/
def categoryLetters : List Char := "CLMNPSZclmnpsz".toList

/-- Read an escape behind its backslash. -/
def readEscape? (mode : Mode) : List Char → Option (Atom × List Char)
  | [] => none
  | c :: text =>
    match c with
    | 'x' => (readCode? mode 2 text).map fun (code, rest) => (.byte code, rest)
    | 'u' => (readCode? mode 4 text).map fun (code, rest) => (.character code, rest)
    | 'U' => (readCode? mode 8 text).map fun (code, rest) => (.character code, rest)
    | 'p' | 'P' =>
      match mode.skip text with
      | letter :: rest => if categoryLetters.contains letter then some (.category, rest) else none
      | [] => none
    | 'd' | 's' | 'w' => some (.set false, text)
    | 'D' | 'S' | 'W' => some (.set true, text)
    | 'A' | 'z' => some (.edge false, text)
    | 'b' | 'B' | '<' | '>' => some (.edge true, text)
    | 'a' => some (.character '\x07', text)
    | 'f' => some (.character '\x0c', text)
    | 't' => some (.character '\t', text)
    | 'n' => some (.character '\n', text)
    | 'r' => some (.character '\r', text)
    | 'v' => some (.character '\x0b', text)
    | _ => if isBeyond c || c.isAlphanum then none else some (.character c, text)

end CallRedirect.Pattern
