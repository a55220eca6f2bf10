import CallRedirect.Json.Lexical

/-!
# Numbers of JSON

An integer that fits into 64 bits is kept as it is; any other number becomes a
64-bit floating-point number.  That number is not always the nearest one: as
many leading digits as fit into 64 bits are rounded first, and the result is
multiplied or divided by a power of ten that is itself rounded.
-/

namespace CallRedirect.Json

/-- The least natural number that does not fit into 64 bits. -/
def wordLimit : Nat := 0x10000000000000000

/-- The greatest power of ten by which a number is scaled in one step. -/
def maxScale : Nat := 308

/-- The floating-point number nearest to `10 ^ exponent`. -/
def powerOfTen? (exponent : Nat) : Option Decimal.Magnitude :=
  Decimal.Magnitude.ofRatio? Decimal.binary64 (Nat.pow 10 exponent) 1

/-- Divide by `10 ^ exponent`, in steps of at most `maxScale`, until nothing is left. -/
def scaledDown? (x : Decimal.Magnitude) (exponent : Nat) : Option Decimal.Magnitude := do
  if exponent ≤ maxScale then
    Decimal.Magnitude.div? Decimal.binary64 x (← powerOfTen? exponent)
  else if x.mantissa = 0 then return x
  else
    let smaller ← Decimal.Magnitude.div? Decimal.binary64 x (← powerOfTen? maxScale)
    scaledDown? smaller (exponent - maxScale)
  termination_by exponent
  decreasing_by simp only [maxScale] at *; omega

/-- The floating-point number for `significand * 10 ^ exponent`, if it is not too large. -/
def scaled? (significand : Nat) (exponent : Int) : Option Decimal.Magnitude := do
  let x ← Decimal.Magnitude.ofRatio? Decimal.binary64 significand 1
  if exponent < 0 then scaledDown? x exponent.natAbs
  else if exponent.natAbs ≤ maxScale then
    Decimal.Magnitude.mul? Decimal.binary64 x (← powerOfTen? exponent.natAbs)
  else if x.mantissa = 0 then return x
  else none

/-- Whether a character is a decimal digit. -/
def isDigit (c : Char) : Bool := '0' ≤ c && c ≤ '9'

/-- The value of a decimal digit. -/
def digitValue (c : Char) : Nat := c.toNat - '0'.toNat

/-- Leading digits as a number below `wordLimit`, with the digits that did not
fit any more and what follows the digits. -/
def readDigits (start : Nat) : List Char → Nat × List Char × List Char
  | [] => (start, [], [])
  | c :: rest =>
      if isDigit c then
        let next := 10 * start + digitValue c
        if next < wordLimit then readDigits next rest
        else (start, (c :: rest).takeWhile isDigit, (c :: rest).dropWhile isDigit)
      else (start, [], c :: rest)

/-- A floating-point number with what is left of the text. -/
def realNumber (negative : Bool) (significand : Nat) (exponent : Int) (rest : List Char) :
    Except ReadError (Number × List Char) :=
  match scaled? significand exponent with
  | some magnitude => .ok (.real negative magnitude, rest)
  | none => .error .numberOutOfRange

/-- The greatest exponent that is looked at. -/
def maxExponent : Nat := 0x7fffffff

/-- Read what follows the `e` of a number. -/
def readExponent (negative : Bool) (significand : Nat) (exponent : Int) (text : List Char) :
    Except ReadError (Number × List Char) :=
  let down := text.head? = some '-'
  let digits := if down ∨ text.head? = some '+' then text.drop 1 else text
  match digits with
  | [] => .error .endInValue
  | c :: _ =>
    if isDigit c then
      let value := Nat.ofDigitChars 10 (digits.takeWhile isDigit) 0
      let rest := digits.dropWhile isDigit
      if maxExponent < value then
        if significand ≠ 0 ∧ ¬ down then .error .numberOutOfRange
        else realNumber negative 0 0 rest
      else
        let scaled := if down then exponent - value else exponent + value
        realNumber negative significand scaled rest
    else .error .invalidNumber

/-- Read an exponent, if there is one. -/
def readScale (negative : Bool) (significand : Nat) (exponent : Int) :
    List Char → Except ReadError (Number × List Char)
  | 'e' :: text => readExponent negative significand exponent text
  | 'E' :: text => readExponent negative significand exponent text
  | text => realNumber negative significand exponent text

/-- Read what follows the point of a number. -/
def readFraction (negative : Bool) (significand : Nat) (exponent : Int) (text : List Char) :
    Except ReadError (Number × List Char) :=
  match text with
  | [] => .error .endInValue
  | c :: _ =>
    if isDigit c then
      let (value, ignored, rest) := readDigits significand text
      let places := text.length - ignored.length - rest.length
      readScale negative value (exponent - places) rest
    else .error .invalidNumber

/-- The greatest natural number whose negative is kept as an integer. -/
def maxNegated : Nat := 0x8000000000000000

/-- The number of an integer that is below `wordLimit`.  A negative one below
`-maxNegated`, or zero, is a floating-point number. -/
def integerNumber (negative : Bool) (value : Nat) (rest : List Char) :
    Except ReadError (Number × List Char) :=
  if ¬ negative then .ok (.integer value, rest)
  else if value = 0 ∨ maxNegated < value then realNumber true value 0 rest
  else .ok (.integer (-value), rest)

/-- Read a number without its sign. -/
def readUnsigned (negative : Bool) (text : List Char) :
    Except ReadError (Number × List Char) :=
  match text with
  | [] => .error .endInValue
  | c :: after =>
    if ¬ isDigit c then .error .invalidNumber
    else if c = '0' ∧ (after.head?.map isDigit).getD false then .error .invalidNumber
    else
      let (value, ignored, rest) := readDigits 0 text
      match rest with
      | '.' :: fraction => readFraction negative value ignored.length fraction
      | 'e' :: power => readExponent negative value ignored.length power
      | 'E' :: power => readExponent negative value ignored.length power
      | _ =>
        if ignored.isEmpty then integerNumber negative value rest
        else realNumber negative value ignored.length rest

/-- Read a number from its sign on. -/
def Read.number : Read Number := fun text =>
  match text with
  | '-' :: rest => readUnsigned true rest
  | _ => readUnsigned false text

end CallRedirect.Json
