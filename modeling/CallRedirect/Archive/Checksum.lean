import CallRedirect.Bytes

/-!
# Check sums

An archive keeps a cyclic redundancy check of every entry: the remainder of the
entry's bits, lowest bit first, by a polynomial of degree 32.
-/

namespace CallRedirect.Archive

/-- The polynomial, without its leading term, lowest degree in the highest bit. -/
def checksumPolynomial : UInt32 := 0xedb88320

/-- Move a remainder on by one bit. -/
def checksumShift (remainder : UInt32) : UInt32 :=
  if remainder % 2 = 1 then (remainder >>> 1) ^^^ checksumPolynomial else remainder >>> 1

/-- Move a remainder on by one byte. -/
def checksumStep (remainder : UInt32) (byte : UInt8) : UInt32 :=
  (List.range 8).foldl (fun r _ => checksumShift r) (remainder ^^^ byte.toUInt32)

/-- The check sum of a byte string. -/
def checksum (bytes : Bytes) : UInt32 :=
  ~~~ bytes.foldl checksumStep (~~~ 0)

end CallRedirect.Archive
