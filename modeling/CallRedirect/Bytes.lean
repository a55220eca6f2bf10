/-!
# Byte strings

Byte strings are lists of bytes.  Numbers are read from them in either byte
order; a number of `n` bytes is always below `256 ^ n`, so nothing wraps.
-/

namespace CallRedirect

/-- A byte string, first byte first. -/
abbrev Bytes := List UInt8

/-- The number written in base 256, most significant byte first. -/
def bigEndian (bytes : Bytes) : Nat :=
  bytes.foldl (fun value byte => 256 * value + byte.toNat) 0

/-- The number written in base 256, least significant byte first. -/
def littleEndian : Bytes → Nat
  | [] => 0
  | byte :: rest => byte.toNat + 256 * littleEndian rest

/-- A 32-bit word read in two's complement. -/
def signed32 (word : Nat) : Int :=
  if word < 0x80000000 then word else (word : Int) - 0x100000000

/-- A 64-bit word read in two's complement. -/
def signed64 (word : Nat) : Int :=
  if word < 0x8000000000000000 then word else (word : Int) - 0x10000000000000000

/-- The `width` bytes that start `skip` bytes into `bytes`, if they are all there. -/
def slice? (bytes : Bytes) (skip width : Nat) : Option Bytes :=
  let part := (bytes.drop skip).take width
  if part.length = width then some part else none

/-- The big-endian word of `width` bytes that starts `skip` bytes into `bytes`. -/
def word? (bytes : Bytes) (skip width : Nat) : Option Nat :=
  (slice? bytes skip width).map bigEndian

/-- The two lower-case hexadecimal digits of a byte. -/
def hexByte (byte : UInt8) : String :=
  let digit (n : Nat) : Char := Nat.digitChar n
  String.ofList [digit (byte.toNat / 16), digit (byte.toNat % 16)]

theorem bigEndian_append_singleton (bytes : Bytes) (byte : UInt8) :
    bigEndian (bytes ++ [byte]) = 256 * bigEndian bytes + byte.toNat := by
  simp [bigEndian]

theorem length_of_slice? {bytes part : Bytes} {skip width : Nat}
    (h : slice? bytes skip width = some part) : part.length = width := by
  simp only [slice?] at h
  split at h
  · next hlen => cases h; exact hlen
  · simp at h

end CallRedirect
