/-!
# Rounding to binary floating point

A floating-point number without its sign is `mantissa * 2 ^ exponent`.  A ratio
of natural numbers is rounded to the nearest such number, a tie to the one with
the even mantissa.  All is done in exact arithmetic on natural numbers.

Where a ratio is rounded to a natural number, the rule for ties is a parameter.
-/

namespace CallRedirect.Decimal

/-- A binary floating-point format: mantissas are below `2 ^ digits`. -/
structure BinaryFormat where
  digits : Nat
  minExponent : Int
  maxExponent : Int
  deriving DecidableEq, Repr

/-- The format of 32 bits. -/
def binary32 : BinaryFormat := ⟨24, -149, 104⟩

/-- The format of 64 bits. -/
def binary64 : BinaryFormat := ⟨53, -1074, 971⟩

/-- The number `mantissa * 2 ^ exponent`. -/
structure Magnitude where
  mantissa : Nat
  exponent : Int
  deriving DecidableEq, Repr, Inhabited

/-- The ratio `num / (den * 2 ^ exponent)` as numerator and denominator. -/
def scaleDown (num den : Nat) (exponent : Int) : Nat × Nat :=
  if 0 ≤ exponent then (num, den * Nat.pow 2 exponent.toNat)
  else (num * Nat.pow 2 (-exponent).toNat, den)

/-- Where a ratio goes that lies halfway between two natural numbers. -/
inductive Tie
  | toEven | up
  deriving DecidableEq, Repr

/-- The natural number nearest to `num / den`. -/
def roundRatio (tie : Tie) (num den : Nat) : Nat :=
  let quotient := num / den
  let twice := 2 * (num % den)
  if twice < den then quotient
  else if den < twice then quotient + 1
  else
    match tie with
    | .up => quotient + 1
    | .toEven => if quotient % 2 = 0 then quotient else quotient + 1

namespace Magnitude

/-- The number as numerator and denominator. -/
def ratio (x : Magnitude) : Nat × Nat :=
  scaleDown x.mantissa 1 (-x.exponent)

/-- The number of a format nearest to `num / den`; too large a ratio has none. -/
def ofRatio? (format : BinaryFormat) (num den : Nat) : Option Magnitude :=
  if num = 0 then some ⟨0, format.minExponent⟩
  else
    let guess : Int := (Nat.log2 num : Int) - Nat.log2 den - (format.digits - 1)
    let (n, d) := scaleDown num den guess
    let fitted := if n / d < Nat.pow 2 (format.digits - 1) then guess - 1 else guess
    let exponent := max fitted format.minExponent
    let (n, d) := scaleDown num den exponent
    let mantissa := roundRatio .toEven n d
    let rounded : Magnitude :=
      if mantissa = Nat.pow 2 format.digits then
        ⟨Nat.pow 2 (format.digits - 1), exponent + 1⟩
      else ⟨mantissa, exponent⟩
    if format.maxExponent < rounded.exponent then none else some rounded

/-- The nearest number of a format to a product. -/
def mul? (format : BinaryFormat) (x y : Magnitude) : Option Magnitude :=
  ofRatio? format (x.ratio.1 * y.ratio.1) (x.ratio.2 * y.ratio.2)

/-- The nearest number of a format to a quotient. -/
def div? (format : BinaryFormat) (x y : Magnitude) : Option Magnitude :=
  ofRatio? format (x.ratio.1 * y.ratio.2) (x.ratio.2 * y.ratio.1)

end Magnitude

end CallRedirect.Decimal
