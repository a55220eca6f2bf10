import CallRedirect.Archive.PrefixCode
import CallRedirect.Bytes

/-!
# Inflating

Deflated data is a row of blocks.  A block holds bytes as they are, or symbols of
two prefix codes: one for bytes, for the end of the block and for the lengths of
repetitions, and one for the distances that they reach back.  The codes of a
block are fixed or are given at its start.

Data that breaks the rules is corrupt, and data that ends before its last block
does is incomplete.  The data is read from the front, so what comes first counts.
-/

namespace CallRedirect.Archive

/-- Why data is not inflated. -/
inductive InflateError
  | corrupt
  | incomplete
  deriving DecidableEq, Repr

/-- The text of an inflating error. -/
def InflateError.message : InflateError → String
  | corrupt => "corrupt deflate stream"
  | incomplete => "incomplete deflate stream"

namespace Inflate

/-- The bits of a byte string, lowest bit of each byte first. -/
def bitsOf (bytes : Bytes) : List Bool :=
  bytes.flatMap fun byte => (List.range 8).map (fun i => byte.toNat.testBit i)

/-- The number that bits stand for, lowest bit first. -/
def number : List Bool → Nat
  | [] => 0
  | bit :: bits => bit.toNat + 2 * number bits

/-- What is left of the data, and what has been inflated. -/
structure State where
  bits : List Bool
  output : Array UInt8

/-- A step of inflating. -/
abbrev Step := StateT State (Except InflateError)

/-- Fail because of corrupt data. -/
def fail {α : Type} : Step α := fun _ => .error .corrupt

/-- Read a number of `width` bits. -/
def take (width : Nat) : Step Nat := fun state =>
  let part := state.bits.take width
  if part.length = width then
    .ok (number part, { state with bits := state.bits.drop width })
  else .error .incomplete

/-- Read a symbol. -/
def symbol (code : PrefixCode) : Step Nat := fun state =>
  match code.decode state.bits with
  | .symbol value rest => .ok (value, { state with bits := rest })
  | .ended => .error .incomplete
  | .noSymbol => .error .corrupt

/-- Put out a byte. -/
def emit (byte : UInt8) : Step Unit :=
  modify fun state => { state with output := state.output.push byte }

/-- Repeat `length` bytes, each the one `distance` bytes back. -/
def copy (distance : Nat) : Nat → Step Unit
  | 0 => return ()
  | length + 1 => do
      let output := (← get).output
      if output.size < distance then fail
      match output[output.size - distance]? with
      | some byte => do
          emit byte
          copy distance length
      | none => fail

/-- The shortest repetition of a length symbol above 256, and its extra bits. -/
def lengthRanges : List (Nat × Nat) := [
  (3, 0), (4, 0), (5, 0), (6, 0), (7, 0), (8, 0), (9, 0), (10, 0),
  (11, 1), (13, 1), (15, 1), (17, 1), (19, 2), (23, 2), (27, 2), (31, 2),
  (35, 3), (43, 3), (51, 3), (59, 3), (67, 4), (83, 4), (99, 4), (115, 4),
  (131, 5), (163, 5), (195, 5), (227, 5), (258, 0)]

/-- The shortest distance of a distance symbol, and its extra bits. -/
def distanceRanges : List (Nat × Nat) := [
  (1, 0), (2, 0), (3, 0), (4, 0), (5, 1), (7, 1), (9, 2), (13, 2),
  (17, 3), (25, 3), (33, 4), (49, 4), (65, 5), (97, 5), (129, 6), (193, 6),
  (257, 7), (385, 7), (513, 8), (769, 8), (1025, 9), (1537, 9), (2049, 10), (3073, 10),
  (4097, 11), (6145, 11), (8193, 12), (12289, 12), (16385, 13), (24577, 13)]

/-- Read a number from a range that a symbol stands for. -/
def ranged (ranges : List (Nat × Nat)) (position : Nat) : Step Nat :=
  match ranges[position]? with
  | some (least, extra) => do return least + (← take extra)
  | none => fail

/-- Inflate symbols up to the end of a block, at most `fuel` of them. -/
def symbols (literals distances : PrefixCode) : Nat → Step Unit
  | 0 => fail
  | fuel + 1 => do
      let value ← symbol literals
      if value < 256 then do
        emit (UInt8.ofNat value)
        symbols literals distances fuel
      else if value = 256 then return ()
      else do
        let length ← ranged lengthRanges (value - 257)
        let distance ← ranged distanceRanges (← symbol distances)
        copy distance length
        symbols literals distances fuel

/-- Inflate a block of symbols.  Every symbol takes a bit. -/
def codedBlock (literals distances : PrefixCode) : Step Unit := do
  let state ← get
  symbols literals distances (state.bits.length + 1)

/-- Put out `count` bytes as they are. -/
def literalBytes : Nat → Step Unit
  | 0 => return ()
  | count + 1 => do
      emit (UInt8.ofNat (← take 8))
      literalBytes count

/-- Inflate a block of bytes: from the next full byte on, their number, the same
with all bits turned, and the bytes. -/
def storedBlock : Step Unit := do
  modify fun state => { state with bits := state.bits.drop (state.bits.length % 8) }
  let length ← take 16
  let turned ← take 16
  if length + turned ≠ 0xffff then fail
  literalBytes length

/-- The lengths of the fixed code for bytes and repetitions. -/
def fixedLengths : List Nat :=
  List.replicate 144 8 ++ List.replicate 112 9 ++ List.replicate 24 7 ++ List.replicate 8 8

/-- The fixed code for bytes and repetitions. -/
def fixedLiterals : PrefixCode := PrefixCode.ofLengths fixedLengths

/-- The fixed code for distances; its last two symbols stand for none. -/
def fixedDistances : PrefixCode := PrefixCode.ofLengths (List.replicate 32 5)

/-- The order in which the lengths of the code for code lengths are given. -/
def lengthOrder : List Nat := [16, 17, 18, 0, 8, 7, 9, 6, 10, 5, 11, 4, 12, 3, 13, 2, 14, 1, 15]

/-- Read `count` numbers of three bits. -/
def smallNumbers : Nat → Step (List Nat)
  | 0 => return []
  | count + 1 => do
      let first ← take 3
      return first :: (← smallNumbers count)

/-- The lengths of the code for code lengths, in the order of its symbols. -/
def lengthCodeLengths (given : List Nat) : List Nat :=
  (List.range 19).map fun symbol =>
    (((lengthOrder.zip given).find? (fun pair => pair.1 = symbol)).map (·.2)).getD 0

/-- The code for code lengths with the given lengths of its own.  Without any
symbol every bit stands for the length zero. -/
def lengthCode? (lengths : List Nat) : Option PrefixCode :=
  if lengths.all (· = 0) then some [[0, 0]]
  else
    let code := PrefixCode.ofLengths lengths
    if code.isComplete then some code else none

/-- Read code lengths until there are `count`, in at most `fuel` steps.  Some
symbols repeat the last length or zero. -/
def codeLengths (code : PrefixCode) (count : Nat) : Nat → List Nat → Step (List Nat)
  | 0, _ => fail
  | fuel + 1, known =>
    if count ≤ known.length then return known
    else do
      let value ← symbol code
      let (repeated, least, extra) :=
        match value with
        | 16 => (known.getLast?, 3, 2)
        | 17 => (some 0, 3, 3)
        | 18 => (some 0, 11, 7)
        | _ => (some value, 1, 0)
      match repeated with
      | none => fail
      | some length => do
          let times := least + (← take extra)
          if count < known.length + times then fail
          codeLengths code count fuel (known ++ List.replicate times length)

/-- Inflate a block that starts with its codes. -/
def dynamicBlock : Step Unit := do
  let literalCount := 257 + (← take 5)
  let distanceCount := 1 + (← take 5)
  let givenCount := 4 + (← take 4)
  if 286 < literalCount ∨ 30 < distanceCount then fail
  let given ← smallNumbers givenCount
  let (some lengthCode) := lengthCode? (lengthCodeLengths given) | fail
  let total := literalCount + distanceCount
  let lengths ← codeLengths lengthCode total (total + 1) []
  let literals := PrefixCode.ofLengths (lengths.take literalCount)
  let distances := PrefixCode.ofLengths (lengths.drop literalCount)
  if lengths[256]? = some 0 then fail
  if ¬ (literals.isComplete || literals.isTrivial) then fail
  if ¬ (distances.isComplete || distances.isTrivial) then fail
  codedBlock literals distances

/-- Inflate one block; whether it is the last one. -/
def block : Step Bool := do
  let last ← take 1
  match ← take 2 with
  | 0 => storedBlock
  | 1 => codedBlock fixedLiterals fixedDistances
  | 2 => dynamicBlock
  | _ => fail
  return last = 1

/-- Inflate blocks up to the last one, at most `fuel` of them. -/
def blocks : Nat → Step Unit
  | 0 => fail
  | fuel + 1 => do
      if ← block then return ()
      else blocks fuel

end Inflate

/-- The bytes that deflated data holds.  What follows its last block is not looked
at. -/
def inflate (bytes : Bytes) : Except InflateError Bytes :=
  let bits := Inflate.bitsOf bytes
  match Inflate.blocks (bits.length + 1) ⟨bits, #[]⟩ with
  | .ok ((), state) => .ok state.output.toList
  | .error e => .error e

end CallRedirect.Archive
