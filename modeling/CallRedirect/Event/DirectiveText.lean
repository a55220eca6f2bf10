import CallRedirect.Event.Directive
import CallRedirect.Text.Blank
import CallRedirect.Text.Letter
import CallRedirect.Text.Pattern

/-!
# Reading directives

The forms of a directive are

* `level`, for all events;
* `target`, for all levels of one origin;
* `target=level`, where a missing level means the most verbose one;
* `target[span]=level` and `target[span\x7bname\x7d]=level`, where the target, the
  span, and the name with its braces may be missing; behind a name and another
  equals sign a value may stand.

There are no spans here, so a directive that asks for one fits no event, and
neither does one that asks for the value behind a name.

The form is that of the text without the blanks at its ends, and it tells at how
many bytes from the start each part begins and ends.  The parts are then cut from
the whole text.  So blanks in front of a directive move its parts, and blanks
behind it belong to a level or a target that stands last.
-/

namespace CallRedirect

namespace Directive

/-- Where a part of a text begins and ends, in bytes. -/
structure Extent where
  first : Nat
  last : Nat
  deriving DecidableEq, Repr

/-- The form of a directive.  The level of one with parts begins behind its equals
sign and goes on to the end. -/
inductive Form
  | word
  | parts (target span field : Option Extent) (level : Option Nat)
  deriving DecidableEq, Repr

/-- The number of bytes of characters. -/
def byteSize (text : List Char) : Nat := text.foldl (fun size c => size + c.utf8Size) 0

/-- What follows the first `size` bytes, unless a character stands across. -/
def dropBytes? : Nat → List Char → Option (List Char)
  | 0, text => some text
  | _ + 1, [] => none
  | size + 1, c :: text =>
      if c.utf8Size ≤ size + 1 then dropBytes? (size + 1 - c.utf8Size) text else none

/-- The first `size` bytes, unless a character stands across. -/
def takeBytes? : Nat → List Char → Option (List Char)
  | 0, _ => some []
  | _ + 1, [] => none
  | size + 1, c :: text =>
      if c.utf8Size ≤ size + 1 then (takeBytes? (size + 1 - c.utf8Size) text).map (c :: ·)
      else none

/-- The part of a text with an extent. -/
def Extent.cut? (extent : Extent) (text : List Char) : Option (List Char) := do
  takeBytes? (extent.last - extent.first) (← dropBytes? extent.first text)

/-- Where the level begins behind a target or a span that ends at `place`: behind an
equals sign, if anything is left. -/
def levelPlace? (place : Nat) : List Char → Option (Option Nat)
  | [] => some none
  | '=' :: _ => some (some (place + 1))
  | _ => none

/-- The form of what is left behind the opening bracket of a span, at `place`. -/
def spanForm? (target : Option Extent) (place : Nat) (text : List Char) : Option Form :=
  let isInside (c : Char) : Bool := c ≠ ']' && c ≠ '\x7b'
  let finish := place + byteSize (text.takeWhile isInside)
  let span : Option Extent := some ⟨place, finish⟩
  match text.dropWhile isInside with
  | [] => none
  | ']' :: rest => (levelPlace? (finish + 1) rest).map (.parts target span none)
  | _ :: rest =>
    let fieldFinish := finish + 1 + byteSize (rest.takeWhile (· ≠ '\x7d'))
    let field : Option Extent := some ⟨finish + 1, fieldFinish⟩
    match rest.dropWhile (· ≠ '\x7d') with
    | _ :: ']' :: suffix => (levelPlace? (fieldFinish + 2) suffix).map (.parts target span field)
    | _ => none

/-- Whether a directive may start with a character. -/
def mayStart (c : Char) : Bool :=
  c = '-' || c = ':' || c = '_' || Letter.isAlphanumeric c

/-- The form of a text without blanks at its ends. -/
def form? : List Char → Option Form
  | [] => none
  | '[' :: rest => spanForm? none 1 rest
  | first :: others =>
    if ! mayStart first then none
    else
      let text := first :: others
      let isInside (c : Char) : Bool := c ≠ '=' && c ≠ '['
      let finish := byteSize (text.takeWhile isInside)
      let target : Option Extent := some ⟨0, finish⟩
      match text.dropWhile isInside with
      | [] => some .word
      | '[' :: span => spanForm? target (finish + 1) span
      | _ => some (.parts target none none (some (finish + 1)))

/-- The level that a number stands for, or no level for zero. -/
def numberedLevel? : Nat → Option (Option Level)
  | 0 => some none
  | 1 => some (some .error)
  | 2 => some (some .warn)
  | 3 => some (some .info)
  | 4 => some (some .debug)
  | 5 => some (some .trace)
  | _ => none

/-- The level that a word stands for, in letters of either case. -/
def namedLevel? (text : List Char) : Option (Option Level) :=
  let word := String.ofList (text.map Char.toUpper)
  if word = "OFF" then some none
  else ([Level.error, .warn, .info, .debug, .trace].find? (fun level => level.name = word)).map some

/-- The level that a text gives: a number, a word, or nothing. -/
def readLevel? (text : List Char) : Option (Option Level) :=
  if text.isEmpty then some (some .trace)
  else
    let digits := if text.head? = some '+' then text.drop 1 else text
    if ! digits.isEmpty && digits.all Char.isDigit then
      numberedLevel? (Nat.ofDigitChars 10 digits 0)
    else namedLevel? text

/-- Whether a text is a power of ten: a letter, perhaps a sign, and digits. -/
def isPower : List Char → Bool
  | letter :: text =>
      let digits := if text.head? ∈ [some '+', some '-'] then text.drop 1 else text
      (letter = 'e' || letter = 'E') && ! digits.isEmpty && digits.all Char.isDigit
  | [] => false

/-- Whether a text is a number without a sign: digits, perhaps with a point and a
power, or a word. -/
def isNumber (text : List Char) : Bool :=
  let whole := text.takeWhile Char.isDigit
  let (places, power) :=
    match text.dropWhile Char.isDigit with
    | '.' :: rest => (rest.takeWhile Char.isDigit, rest.dropWhile Char.isDigit)
    | rest => ([], rest)
  ["inf", "infinity", "nan"].contains (String.ofList (text.map Char.toLower)) ||
    (! (whole ++ places).isEmpty && (power.isEmpty || isPower power))

/-- Whether a text can be asked for as a value: it is a pattern, as numbers are, or
a number with a plus sign. -/
def isValue : List Char → Bool
  | '+' :: number => isNumber number
  | text => isPattern text

/-- The name of a field without a value.  The result is none if the field is faulty,
and holds none if it has a value. -/
def readField? (text : List Char) : Option (Option String) :=
  if text.isEmpty then none
  else
    match text.splitOn '=' with
    | _ :: value :: _ => if isValue value then some none else none
    | _ => some (some (String.ofList text))

/-- Read a directive of a form.  The result is none if it is faulty, and holds none
if it fits no event. -/
def ofForm? (text : List Char) : Form → Option (Option Directive)
  | .word =>
    match readLevel? text with
    | some level => some (some ⟨none, [], level⟩)
    | none => some (some ⟨some (String.ofList text), [], some .trace⟩)
  | .parts targetExtent spanExtent fieldExtent levelPlace => do
      let target ← targetExtent.mapM (·.cut? text)
      let span ← spanExtent.mapM (·.cut? text)
      let field ← fieldExtent.mapM (·.cut? text)
      let name ← field.mapM readField?
      let level ←
        match levelPlace with
        | some place => (dropBytes? place text).bind readLevel?
        | none => some (some .trace)
      let needsSpan := if field.isSome then span ≠ some [] else span.isSome
      if needsSpan || name = some none then return none
      else return some ⟨target.map String.ofList, name.join.toList, level⟩

/-- Read a directive.  The result is none if it is faulty, and holds none if it fits
no event. -/
def read? (text : List Char) : Option (Option Directive) := do
  ofForm? text (← form? (trimBlanks text))

end Directive

end CallRedirect
