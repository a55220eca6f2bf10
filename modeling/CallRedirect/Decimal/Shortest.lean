import CallRedirect.Decimal.Rounding

/-!
# Shortest decimal text

A floating-point number is written with the fewest decimal digits that round
back to it.  Of several such texts the nearest to the number is taken.  Which of
two equally near ones is taken belongs to the layout, as do the places where an
exponent takes over and how it is signed.

The numbers that round to `mantissa * 2 ^ exponent` form an interval around it,
whose ends belong to it exactly if the mantissa is even.  Grids of powers of
ten are tried from coarse to fine; on the first one that meets the interval,
one of the number's two neighbours on the grid lies in it.
-/

namespace CallRedirect.Decimal

/-- The decimal number `digits * 10 ^ exponent`. -/
structure Scientific where
  digits : Nat
  exponent : Int
  deriving DecidableEq, Repr, Inhabited

/-- Compare `a / b` with `digits * 10 ^ exponent`. -/
def compareRatio (a b digits : Nat) (exponent : Int) : Ordering :=
  if 0 ≤ exponent then compare a (digits * Nat.pow 10 exponent.toNat * b)
  else compare (a * Nat.pow 10 (-exponent).toNat) (digits * b)

/-- The numbers that round to one floating-point number, in units of a quarter
of its last place. -/
structure RoundingInterval where
  lower : Nat
  middle : Nat
  upper : Nat
  unit : Int
  closed : Bool

/-- The interval of the numbers that round to `x`. -/
def RoundingInterval.of (format : BinaryFormat) (x : Magnitude) : RoundingInterval where
  lower :=
    if x.mantissa = Nat.pow 2 (format.digits - 1) ∧ format.minExponent < x.exponent then
      4 * x.mantissa - 1
    else 4 * x.mantissa - 2
  middle := 4 * x.mantissa
  upper := 4 * x.mantissa + 2
  unit := x.exponent - 2
  closed := x.mantissa % 2 = 0

namespace RoundingInterval

/-- Whether a decimal number lies in the interval. -/
def contains (interval : RoundingInterval) (digits : Nat) (exponent : Int) : Bool :=
  let (low, b) := scaleDown interval.lower 1 (-interval.unit)
  let (high, c) := scaleDown interval.upper 1 (-interval.unit)
  match compareRatio low b digits exponent, compareRatio high c digits exponent with
  | .lt, .gt => true
  | .eq, _ => interval.closed
  | _, .eq => interval.closed
  | _, _ => false

/-- The neighbour of the number on the grid of `10 ^ exponent` that lies in the
interval and is nearest to the number. -/
def neighbour? (interval : RoundingInterval) (tie : Tie) (exponent : Int) : Option Nat :=
  let (n, d) := scaleDown interval.middle 1 (-interval.unit)
  let (n, d) :=
    if 0 ≤ exponent then (n, d * Nat.pow 10 exponent.toNat)
    else (n * Nat.pow 10 (-exponent).toNat, d)
  let below := n / d
  match interval.contains below exponent, interval.contains (below + 1) exponent with
  | true, true => some (roundRatio tie n d)
  | true, false => some below
  | false, true => some (below + 1)
  | false, false => none

/-- Try the grids of `10 ^ exponent` and of the `fuel` next finer powers. -/
def search (interval : RoundingInterval) (tie : Tie) : Nat → Int → Scientific
  | 0, exponent => ⟨0, exponent⟩
  | fuel + 1, exponent =>
    match interval.neighbour? tie exponent with
    | some digits => ⟨digits, exponent⟩
    | none => interval.search tie fuel (exponent - 1)

end RoundingInterval

/-- The shortest decimal number that rounds to `x`, which is not zero. -/
def shortest (tie : Tie) (format : BinaryFormat) (x : Magnitude) : Scientific :=
  (RoundingInterval.of format x).search tie 700 330

/-- How a decimal number is laid out: positional if its first digit stands at
most at the sixteenth place before the point and at most `zeros` places of
zeros stand between the point and it, else with an exponent.  A positive
exponent may have a plus sign; `tie` chooses between equally near digits. -/
structure Layout where
  zeros : Nat
  plus : Bool
  tie : Tie
  deriving DecidableEq, Repr

/-- The text of an exponent. -/
def Layout.exponentText (layout : Layout) (exponent : Int) : String :=
  (if layout.plus && 0 ≤ exponent then "+" else "") ++ toString exponent

/-- The text of a decimal number. -/
def Layout.text (layout : Layout) (x : Scientific) : String :=
  let digits := Nat.toDigits 10 x.digits
  let point : Int := digits.length + x.exponent
  let chars :=
    if 0 ≤ x.exponent ∧ point ≤ 16 then
      digits ++ List.replicate x.exponent.toNat '0' ++ ['.', '0']
    else if 0 < point ∧ point ≤ 16 then
      digits.take point.toNat ++ '.' :: digits.drop point.toNat
    else if -(layout.zeros : Int) ≤ point ∧ point ≤ 0 then
      ['0', '.'] ++ List.replicate (-point).toNat '0' ++ digits
    else
      let mantissa :=
        match digits with
        | first :: rest@(_ :: _) => first :: '.' :: rest
        | short => short
      mantissa ++ 'e' :: (layout.exponentText (point - 1)).toList
  String.ofList chars

/-- The text of a magnitude in its shortest form. -/
def Layout.magnitudeText (layout : Layout) (format : BinaryFormat) (x : Magnitude) : String :=
  if x.mantissa = 0 then "0.0" else layout.text (shortest layout.tie format x)

end CallRedirect.Decimal
