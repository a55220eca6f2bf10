import CallRedirect.Bytes

/-!
# Lengths of bytecode instructions

The length of an instruction follows from its opcode, except in three cases:
the two switches carry a table whose size stands in the instruction, behind
zero to three bytes that align it to a multiple of four from the start of the
method, and `wide` takes its length from the opcode behind it.

Lengths are found by looking at the bytes from the instruction on; the offset
is needed for the alignment only.  An opcode that has no meaning counts as an
instruction of one byte.
-/

namespace CallRedirect.Bytecode

/-- What is wrong with the bytes of an instruction. -/
inductive LengthError
  | outOfBounds (offset : Nat)
  | shortWord (bits offset : Nat)
  | tableRange
  | pairCount (count : Int)
  | truncatedWide (offset : Nat)
  | truncated (opcode : UInt8) (offset : Nat)
  deriving DecidableEq, Repr

/-- The text of a length error. -/
def LengthError.message : LengthError → String
  | outOfBounds offset => s!"instruction offset {offset} out of bounds"
  | shortWord bits offset => s!"read u{bits} out of bounds at {offset}"
  | tableRange => "invalid tableswitch range"
  | pairCount count => s!"invalid lookupswitch pair count {count}"
  | truncatedWide offset => s!"truncated wide instruction at {offset}"
  | truncated opcode offset =>
      "truncated instruction 0x" ++ hexByte opcode ++ s!" at {offset}"

/-- The opcode of a jump table over a range of keys. -/
def tableSwitch : UInt8 := 0xaa
/-- The opcode of a jump table over a list of keys. -/
def lookupSwitch : UInt8 := 0xab
/-- The opcode that doubles the operand width of the opcode behind it. -/
def wide : UInt8 := 0xc4
/-- The opcode that adds a constant to a local variable. -/
def increment : UInt8 := 0x84

/-- The number of bytes between a switch opcode at `offset` and its operands. -/
def padding (offset : Nat) : Nat :=
  (4 - (offset + 1) % 4) % 4

theorem padding_lt (offset : Nat) : padding offset < 4 :=
  Nat.mod_lt _ (by decide)

/-- The operands of a switch start at a multiple of four. -/
theorem four_dvd_add_padding (offset : Nat) : 4 ∣ offset + 1 + padding offset := by
  unfold padding
  omega

/-- The length of an instruction that carries no table and is not widened. -/
def plainLength (opcode : UInt8) : Nat :=
  let op := opcode.toNat
  if op = 0x10 ∨ op = 0x12 ∨ (0x15 ≤ op ∧ op ≤ 0x19) ∨ (0x36 ≤ op ∧ op ≤ 0x3a) ∨
      op = 0xa9 ∨ op = 0xbc then 2
  else if op = 0x11 ∨ op = 0x13 ∨ op = 0x14 ∨ op = 0x84 ∨ (0x99 ≤ op ∧ op ≤ 0xa8) ∨
      (0xb2 ≤ op ∧ op ≤ 0xb8) ∨ op = 0xbb ∨ op = 0xbd ∨ op = 0xc0 ∨ op = 0xc1 ∨
      op = 0xc6 ∨ op = 0xc7 then 3
  else if op = 0xc5 then 4
  else if op = 0xb9 ∨ op = 0xba ∨ op = 0xc8 ∨ op = 0xc9 then 5
  else 1

theorem plainLength_pos (opcode : UInt8) : 0 < plainLength opcode := by
  unfold plainLength
  simp only
  repeat' split
  all_goals decide

/-- The big-endian word of `bits` bits that starts `skip` bytes behind `offset`,
where `rest` are the bytes from `offset` on. -/
def readWord (bits offset : Nat) (rest : Bytes) (skip : Nat) : Except LengthError Nat :=
  match word? rest skip (bits / 8) with
  | some word => .ok word
  | none => .error (.shortWord bits (offset + skip))

/-- The 16-bit word at an offset of a byte string. -/
def readWord16 (code : Bytes) (offset : Nat) : Except LengthError Nat :=
  readWord 16 offset (code.drop offset) 0

/-- The 32-bit word at an offset of a byte string. -/
def readWord32 (code : Bytes) (offset : Nat) : Except LengthError Nat :=
  readWord 32 offset (code.drop offset) 0

/-- The number of targets of a jump table from `low` to `high`.  The count must
not be negative and must itself be a signed 32-bit number. -/
def tableCount (low high : Int) : Except LengthError Nat :=
  if 0 ≤ high - low + 1 ∧ high - low + 1 < 0x80000000 then .ok (high - low + 1).toNat
  else .error .tableRange

/-- The length that the instruction at the front of `rest` claims to have. -/
def claimedLength (offset : Nat) (opcode : UInt8) (rest : Bytes) : Except LengthError Nat :=
  let operands := 1 + padding offset
  if opcode = tableSwitch then do
    let low ← readWord 32 offset rest (operands + 4)
    let high ← readWord 32 offset rest (operands + 8)
    let count ← tableCount (signed32 low) (signed32 high)
    return operands + 12 + 4 * count
  else if opcode = lookupSwitch then do
    let count ← readWord 32 offset rest (operands + 4)
    if signed32 count < 0 then throw (.pairCount (signed32 count))
    return operands + 8 + 8 * count
  else if opcode = wide then
    match rest[1]? with
    | none => .error (.truncatedWide offset)
    | some widened => .ok (if widened = increment then 6 else 4)
  else .ok (plainLength opcode)

/-- The length of the instruction at the front of `rest`, the bytes from
`offset` on.  All of the instruction has to be there. -/
def lengthAt (offset : Nat) (rest : Bytes) : Except LengthError Nat :=
  match rest with
  | [] => .error (.outOfBounds offset)
  | opcode :: _ => do
      let length ← claimedLength offset opcode rest
      if (rest.take length).length < length then throw (.truncated opcode offset)
      return length

/-- The length of the instruction at an offset of a method body. -/
def instructionLength (code : Bytes) (offset : Nat) : Except LengthError Nat :=
  lengthAt offset (code.drop offset)

theorem claimedLength_pos {offset length : Nat} {opcode : UInt8} {rest : Bytes}
    (h : claimedLength offset opcode rest = .ok length) : 0 < length := by
  unfold claimedLength at h
  simp only at h
  split at h
  · cases h1 : readWord 32 offset rest (1 + padding offset + 4) with
    | error e => simp [h1, bind, Except.bind] at h
    | ok low =>
      cases h2 : readWord 32 offset rest (1 + padding offset + 8) with
      | error e => simp [h1, h2, bind, Except.bind] at h
      | ok high =>
        cases h3 : tableCount (signed32 low) (signed32 high) with
        | error e => simp [h1, h2, h3, bind, Except.bind] at h
        | ok count =>
          simp only [h1, h2, h3, bind, Except.bind, pure, Except.pure, Except.ok.injEq] at h
          omega
  · split at h
    · cases h1 : readWord 32 offset rest (1 + padding offset + 4) with
      | error e => simp [h1, bind, Except.bind] at h
      | ok count =>
        simp only [h1, bind, Except.bind] at h
        split at h
        · simp [throw, throwThe, MonadExceptOf.throw] at h
        · simp only [pure, Except.pure, Except.ok.injEq] at h
          omega
    · split at h
      · split at h
        · simp at h
        · simp only [Except.ok.injEq] at h
          split at h <;> omega
      · simp only [Except.ok.injEq] at h
        have := plainLength_pos opcode
        omega

/-- An instruction takes at least one byte, and all its bytes are there. -/
theorem lengthAt_bounds {offset length : Nat} {rest : Bytes}
    (h : lengthAt offset rest = .ok length) : 0 < length ∧ length ≤ rest.length := by
  unfold lengthAt at h
  split at h
  · simp at h
  · next opcode tail =>
    cases hc : claimedLength offset opcode (opcode :: tail) with
    | error e => simp [hc, bind, Except.bind] at h
    | ok claimed =>
      simp only [hc, bind, Except.bind] at h
      split at h
      · simp [throw, throwThe, MonadExceptOf.throw] at h
      · next hfits =>
        simp only [pure, Except.pure, Except.ok.injEq] at h
        subst h
        refine ⟨claimedLength_pos hc, ?_⟩
        rw [List.length_take] at hfits
        omega

end CallRedirect.Bytecode
