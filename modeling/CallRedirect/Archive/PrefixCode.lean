/-!
# Canonical prefix codes

A code gives bit strings to symbols so that no one begins another.  It is fixed
by the lengths of the bit strings: shorter ones come first, and among those of
one length the symbols are in order.  A length of zero leaves a symbol out.

A bit string is decoded by counting.  After each bit, `offset` is the number of
bit strings of the current length that come before the one read so far and that
do not begin with a shorter one of the code; the first ones of them belong to
the symbols of that length.  A bit string that no symbol has is known as such
once no longer ones are left.
-/

namespace CallRedirect.Archive

/-- The symbols of a code, by the length of their bit strings from one on. -/
abbrev PrefixCode := List (List Nat)

namespace PrefixCode

/-- The greatest length of a bit string. -/
def maxLength : Nat := 15

/-- The code with the given lengths, symbol by symbol. -/
def ofLengths (lengths : List Nat) : PrefixCode :=
  (List.range maxLength).map fun n =>
    (lengths.zipIdx.filter (fun (length, _) => length = n + 1)).map (·.2)

/-- How many bit strings of the greatest length are left over, given how many of
the current length are free; none if there are too many symbols. -/
def surplus? (free : Nat) : PrefixCode → Option Nat
  | [] => some free
  | symbols :: longer =>
      if 2 * free < symbols.length then none
      else surplus? (2 * free - symbols.length) longer

/-- Whether every bit string can be decoded. -/
def isComplete (code : PrefixCode) : Bool := code.surplus? 1 = some 0

/-- Whether a code has no symbol, or one whose bit string is a single bit. -/
def isTrivial (code : PrefixCode) : Bool :=
  match code with
  | [] => true
  | first :: longer => decide (first.length ≤ 1) && longer.all (·.isEmpty)

/-- The outcome of decoding the front of a bit string. -/
inductive Decoded
  | symbol (value : Nat) (rest : List Bool)
  | ended
  | noSymbol
  deriving DecidableEq, Repr

/-- Decode on from an offset. -/
def decodeFrom (offset : Nat) : PrefixCode → List Bool → Decoded
  | [], _ => .noSymbol
  | _ :: _, [] => .ended
  | symbols :: longer, bit :: bits =>
      let position := 2 * offset + bit.toNat
      match symbols[position]? with
      | some value => .symbol value bits
      | none =>
        if longer.all (·.isEmpty) then .noSymbol
        else decodeFrom (position - symbols.length) longer bits

/-- Decode one symbol. -/
def decode (code : PrefixCode) (bits : List Bool) : Decoded := decodeFrom 0 code bits

end PrefixCode

end CallRedirect.Archive
