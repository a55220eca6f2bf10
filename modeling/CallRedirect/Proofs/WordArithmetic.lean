import CallRedirect.Proofs.InstructionLength
import CallRedirect.Proofs.Words

/-!
# Lengths in machine words

Lengths of instructions are natural numbers here.  A machine computes them in unsigned words of 64
bits, and the number of targets of a jump table in signed words of 32 bits.  `Word.length` is this
computation, step by step; it stops with `WordFault.wrapped` at the first operation whose result
has no room, so one that does not stop there is exact in every step.

In a body of less than `2 ^ 32` bytes it never stops there and gives the same lengths and the same
errors (`Word.length_ofNat`).  The only results without room are table sizes; they are refused, and
no body of that size could hold the table anyway, so what is accepted is what the numbers
themselves would allow (`switch_length_exact`).
-/

namespace CallRedirect.Bytecode

/-- Why a computation in machine words gives no length: an operation has no room for its result,
or the bytes are no instruction. -/
inductive WordFault
  | wrapped
  | refused (cause : LengthError)
  deriving DecidableEq, Repr

/-- A result in a machine word. -/
def inWords : Except LengthError Nat → Except WordFault UInt64
  | .ok length => .ok (UInt64.ofNat length)
  | .error cause => .error (.refused cause)

namespace Word

/-! ## Operations -/

/-- The sum of two words, if there is room for it. -/
def add (first second : UInt64) : Except WordFault UInt64 :=
  if first.toNat + second.toNat < 2 ^ 64 then .ok (first + second) else .error .wrapped

/-- The difference of two words, if it is not negative. -/
def sub (first second : UInt64) : Except WordFault UInt64 :=
  if second.toNat ≤ first.toNat then .ok (first - second) else .error .wrapped

/-- The product of two words, if there is room for it. -/
def mul (first second : UInt64) : Except WordFault UInt64 :=
  if first.toNat * second.toNat < 2 ^ 64 then .ok (first * second) else .error .wrapped

/-- Whether a number has room in a signed word. -/
def HasRoom (value : Int) : Prop := -0x80000000 ≤ value ∧ value < 0x80000000

instance : DecidablePred HasRoom := fun value =>
  inferInstanceAs (Decidable (-0x80000000 ≤ value ∧ value < 0x80000000))

/-- The sum of two signed words, or nothing if there is no room for it. -/
def checkedAdd (first second : Int32) : Option Int32 :=
  if HasRoom (first.toInt + second.toInt) then some (first + second) else none

/-- The difference of two signed words, or nothing if there is no room for it. -/
def checkedSub (first second : Int32) : Option Int32 :=
  if HasRoom (first.toInt - second.toInt) then some (first - second) else none

/-- A signed word in 64 bits, with its sign bit repeated in front. -/
def widen (word : Int32) : UInt64 := word.toInt64.toUInt64

/-! ## The computation -/

/-- The number of bytes between a switch opcode and its operands. -/
def padding (offset : UInt64) : Except WordFault UInt64 := do
  let next ← add offset 1
  let short ← sub 4 (next % 4)
  return short % 4

/-- Where the operands of a switch start. -/
def operands (offset : UInt64) : Except WordFault UInt64 := do
  let next ← add offset 1
  add next (← padding offset)

/-- The signed word that stands `skip` bytes behind a place of a body. -/
def signedBehind (code : Bytes) (base skip : UInt64) : Except WordFault Int32 := do
  let place ← add base skip
  let stop ← add place 4
  match word? (code.take stop.toNat) place.toNat 4 with
  | some word => .ok (UInt32.ofNat word).toInt32
  | none => .error (.refused (.shortWord 32 place.toNat))

/-- The number of targets of a jump table, which must not be negative. -/
def tableCount? (low high : Int32) : Option Int32 := do
  let distance ← checkedSub high low
  let count ← checkedAdd distance 1
  if 0 ≤ count then some count else none

/-- The length of a switch with so many bytes of operands in front of `count` items. -/
def switchLength (offset front : UInt64) (count : Int32) (width : UInt64) :
    Except WordFault UInt64 := do
  let before ← add (← add 1 (← padding offset)) front
  add before (← mul (widen count) width)

/-- The length that a jump table over a range of keys claims to have. -/
def tableLength (code : Bytes) (offset : UInt64) : Except WordFault UInt64 := do
  let base ← operands offset
  let low ← signedBehind code base 4
  let high ← signedBehind code base 8
  match tableCount? low high with
  | none => .error (.refused .tableRange)
  | some count => switchLength offset 12 count 4

/-- The length that a jump table over a list of keys claims to have. -/
def lookupLength (code : Bytes) (offset : UInt64) : Except WordFault UInt64 := do
  let base ← operands offset
  let count ← signedBehind code base 4
  if count < 0 then .error (.refused (.pairCount count.toInt))
  else switchLength offset 8 count 8

/-- The length that a widened instruction claims to have. -/
def wideLength (code : Bytes) (offset : UInt64) : Except WordFault UInt64 := do
  let next ← add offset 1
  match code[next.toNat]? with
  | none => .error (.refused (.truncatedWide offset.toNat))
  | some widened => .ok (if widened = increment then 6 else 4)

/-- The length that an instruction with the given opcode claims to have. -/
def claimed (code : Bytes) (offset : UInt64) (opcode : UInt8) : Except WordFault UInt64 :=
  if opcode = tableSwitch then tableLength code offset
  else if opcode = lookupSwitch then lookupLength code offset
  else if opcode = wide then wideLength code offset
  else .ok (UInt64.ofNat (plainLength opcode))

/-- The length of the instruction at an offset of a method body. -/
def length (code : Bytes) (offset : UInt64) : Except WordFault UInt64 :=
  match code[offset.toNat]? with
  | none => .error (.refused (.outOfBounds offset.toNat))
  | some opcode => do
      let length ← claimed code offset opcode
      let stop ← add offset length
      if code.length < stop.toNat then .error (.refused (.truncated opcode offset.toNat))
      else .ok length

/-! ## Operations that have room -/

section Room

variable {first second : Nat}

theorem toNat_ofNat (h : first < 2 ^ 64) : (UInt64.ofNat first).toNat = first := by
  rw [UInt64.toNat_ofNat', Nat.mod_eq_of_lt h]

theorem add_ofNat (h : first + second < 2 ^ 64) :
    add (UInt64.ofNat first) (UInt64.ofNat second) = .ok (UInt64.ofNat (first + second)) := by
  rw [add, toNat_ofNat (by omega), toNat_ofNat (by omega), if_pos h, UInt64.ofNat_add]

theorem sub_ofNat (h : second ≤ first) (hfirst : first < 2 ^ 64) :
    sub (UInt64.ofNat first) (UInt64.ofNat second) = .ok (UInt64.ofNat (first - second)) := by
  rw [sub, toNat_ofNat hfirst, toNat_ofNat (by omega), if_pos h, UInt64.ofNat_sub h]

theorem mul_ofNat (hfirst : first < 2 ^ 64) (hsecond : second < 2 ^ 64)
    (h : first * second < 2 ^ 64) :
    mul (UInt64.ofNat first) (UInt64.ofNat second) = .ok (UInt64.ofNat (first * second)) := by
  rw [mul, toNat_ofNat hfirst, toNat_ofNat hsecond, if_pos h, UInt64.ofNat_mul]

end Room

theorem checkedAdd_eq_some_iff {first second sum : Int32} :
    checkedAdd first second = some sum ↔ sum.toInt = first.toInt + second.toInt := by
  have hsum (h : HasRoom (first.toInt + second.toInt)) :
      (first + second).toInt = first.toInt + second.toInt := by
    rw [Int32.toInt_add]
    exact Int.bmod_eq_of_le h.1 h.2
  unfold checkedAdd
  split
  · next hroom =>
    rw [Option.some.injEq, ← Int32.toInt_inj, hsum hroom, eq_comm]
  · next hnone =>
    refine iff_of_false nofun fun hsame => hnone ?_
    rw [← hsame]
    exact ⟨sum.le_toInt, sum.toInt_lt⟩

theorem checkedSub_eq_some_iff {first second difference : Int32} :
    checkedSub first second = some difference ↔
      difference.toInt = first.toInt - second.toInt := by
  have hdifference (h : HasRoom (first.toInt - second.toInt)) :
      (first - second).toInt = first.toInt - second.toInt := by
    rw [Int32.toInt_sub]
    exact Int.bmod_eq_of_le h.1 h.2
  unfold checkedSub
  split
  · next hroom =>
    rw [Option.some.injEq, ← Int32.toInt_inj, hdifference hroom, eq_comm]
  · next hnone =>
    refine iff_of_false nofun fun hsame => hnone ?_
    rw [← hsame]
    exact ⟨difference.le_toInt, difference.toInt_lt⟩

/-- The checks of the single steps come to one: the count itself has room and is not negative.
The distance alone has room then, as it is one less. -/
theorem tableCount?_eq_some_iff {low high count : Int32} :
    tableCount? low high = some count ↔
      count.toInt = high.toInt - low.toInt + 1 ∧ 0 ≤ count.toInt := by
  have hone : (1 : Int32).toInt = 1 := rfl
  have hzero : (0 : Int32).toInt = 0 := rfl
  simp only [tableCount?, Option.bind_eq_bind, Option.bind_eq_some_iff, checkedSub_eq_some_iff,
    checkedAdd_eq_some_iff, hone, Int32.le_iff_toInt_le, hzero, Option.ite_none_right_eq_some,
    Option.some.injEq]
  constructor
  · rintro ⟨distance, hdistance, found, hfound, hpositive, rfl⟩
    exact ⟨by omega, hpositive⟩
  · rintro ⟨hcount, hpositive⟩
    have hbelow := count.toInt_lt
    have hdistance : (Int32.ofInt (high.toInt - low.toInt)).toInt = high.toInt - low.toInt :=
      Int32.toInt_ofInt_of_le (by omega) (by omega)
    exact ⟨_, hdistance, count, by omega, hpositive, rfl⟩

theorem exists_tableCount?_of_ok {low high : Int32} {count : Nat}
    (h : tableCount low.toInt high.toInt = .ok count) :
    ∃ word, tableCount? low high = some word ∧ word.toInt = count := by
  obtain ⟨hcount, hroom⟩ := tableCount_eq_ok_iff.1 h
  have hword : (Int32.ofNat count).toInt = count := Int32.toInt_ofNat_of_lt hroom
  exact ⟨_, tableCount?_eq_some_iff.2 ⟨by omega, by omega⟩, hword⟩

theorem tableCount?_of_error {low high : Int32} {cause : LengthError}
    (h : tableCount low.toInt high.toInt = .error cause) :
    tableCount? low high = none ∧ cause = .tableRange := by
  constructor
  · rw [Option.eq_none_iff_forall_ne_some]
    intro count hsome
    obtain ⟨hcount, hpositive⟩ := tableCount?_eq_some_iff.1 hsome
    have hbelow := count.toInt_lt
    have hok : tableCount low.toInt high.toInt = .ok count.toInt.toNat :=
      tableCount_eq_ok_iff.2 ⟨by omega, by omega⟩
    rw [h] at hok
    cases hok
  · unfold tableCount at h
    split at h
    · cases h
    · exact (Except.error.inj h).symm

/-- A signed word that is not negative is the same number in 64 bits. -/
theorem widen_eq {word : Int32} {value : Nat} (h : word.toInt = value) :
    widen word = UInt64.ofNat value := by
  have hwide : word.toInt64.toBitVec.toInt = value := by
    rw [← h, ← Int32.toInt_toInt64]
    rfl
  have hnat : (widen word).toNat = word.toInt64.toBitVec.toNat := rfl
  rw [BitVec.toInt_eq_toNat_cond] at hwide
  rw [← UInt64.toNat_inj, hnat, UInt64.toNat_ofNat']
  have hlt := word.toInt64.toBitVec.isLt
  split at hwide <;> omega

/-! ## The computation is exact -/

theorem padding_ofNat {offset : Nat} (h : offset + 1 < 2 ^ 64) :
    padding (UInt64.ofNat offset) = .ok (UInt64.ofNat (Bytecode.padding offset)) := by
  have hnext : add (UInt64.ofNat offset) 1 = .ok (UInt64.ofNat (offset + 1)) := add_ofNat h
  have hrest : UInt64.ofNat (offset + 1) % 4 = UInt64.ofNat ((offset + 1) % 4) :=
    (UInt64.ofNat_mod h (by decide)).symm
  have hshort : sub 4 (UInt64.ofNat ((offset + 1) % 4)) =
      .ok (UInt64.ofNat (4 - (offset + 1) % 4)) :=
    sub_ofNat (show (offset + 1) % 4 ≤ 4 by omega) (by decide)
  have hlast : UInt64.ofNat (4 - (offset + 1) % 4) % 4 = UInt64.ofNat (Bytecode.padding offset) :=
    (UInt64.ofNat_mod (by omega) (by decide)).symm
  rw [padding, hnext, ok_bind, hrest, hshort, ok_bind, hlast]
  rfl

theorem operands_ofNat {offset : Nat} (h : offset + 4 < 2 ^ 64) :
    operands (UInt64.ofNat offset) =
      .ok (UInt64.ofNat (offset + (1 + Bytecode.padding offset))) := by
  have hpadding := padding_lt offset
  have hnext : add (UInt64.ofNat offset) 1 = .ok (UInt64.ofNat (offset + 1)) :=
    add_ofNat (show offset + 1 < 2 ^ 64 by omega)
  rw [operands, hnext, ok_bind, padding_ofNat (by omega), ok_bind, add_ofNat (by omega),
    Nat.add_assoc]

/-- The word is the one that is read from the bytes behind an offset. -/
theorem signedBehind_ofNat {code : Bytes} {offset base skip : Nat}
    (h : offset + base + skip + 4 < 2 ^ 64) :
    signedBehind code (UInt64.ofNat (offset + base)) (UInt64.ofNat skip) =
      match readWord 32 offset (code.drop offset) (base + skip) with
      | .ok word => .ok (UInt32.ofNat word).toInt32
      | .error cause => .error (.refused cause) := by
  have hstop : add (UInt64.ofNat (offset + base + skip)) 4 =
      .ok (UInt64.ofNat (offset + base + skip + 4)) := add_ofNat h
  have hword : word? (code.take (offset + base + skip + 4)) (offset + base + skip) 4 =
      word? (code.drop offset) (base + skip) (32 / 8) := by
    rw [word?, word?, slice?_take, slice?_drop, Nat.add_assoc]
  rw [signedBehind, add_ofNat (by omega), ok_bind, hstop, ok_bind, toNat_ofNat h,
    toNat_ofNat (by omega), hword, readWord]
  cases word? (code.drop offset) (base + skip) (32 / 8) with
  | some word => rfl
  | none => rw [Nat.add_assoc]

theorem toInt_ofNat {word : Nat} (h : word < 2 ^ 32) :
    (UInt32.ofNat word).toInt32.toInt = signed32 word := by
  have hword : (UInt32.ofNat word).toInt32.toUInt32.toNat = word := UInt32.toNat_ofNat_of_lt' h
  rw [← signed32_toNat, hword]

/-! ### Claimed lengths -/

section Claimed

variable {code : Bytes} {offset : Nat}

/-- With items of at most eight bytes the size of a switch has room. -/
theorem switchLength_ofNat (hoffset : offset < 2 ^ 32) {count : Int32} {front width value : Nat}
    (hcount : count.toInt = value) (hfront : front ≤ 12) (hwidth : width ≤ 8) :
    switchLength (UInt64.ofNat offset) (UInt64.ofNat front) count (UInt64.ofNat width) =
      .ok (UInt64.ofNat (1 + Bytecode.padding offset + front + width * value)) := by
  have hpadding := padding_lt offset
  have hroom : value < 2 ^ 31 := by
    have := count.toInt_lt
    omega
  have hitems : value * width ≤ 2 ^ 31 * 8 := Nat.mul_le_mul (Nat.le_of_lt hroom) hwidth
  have hone : add 1 (UInt64.ofNat (Bytecode.padding offset)) =
      .ok (UInt64.ofNat (1 + Bytecode.padding offset)) :=
    add_ofNat (show 1 + Bytecode.padding offset < 2 ^ 64 by omega)
  rw [switchLength, padding_ofNat (by omega), ok_bind, hone, ok_bind, add_ofNat (by omega),
    ok_bind, widen_eq hcount, mul_ofNat (by omega) (by omega) (by omega), ok_bind,
    add_ofNat (by omega), Nat.mul_comm]

theorem tableLength_ofNat (hoffset : offset < 2 ^ 32) :
    tableLength code (UInt64.ofNat offset) =
      inWords (claimedLength offset tableSwitch (code.drop offset)) := by
  have hpadding := padding_lt offset
  have hfour : (4 : UInt64) = UInt64.ofNat 4 := rfl
  have height : (8 : UInt64) = UInt64.ofNat 8 := rfl
  rw [tableLength, operands_ofNat (by omega), ok_bind, hfour, height,
    signedBehind_ofNat (by omega), signedBehind_ofNat (by omega)]
  simp only [claimedLength, if_true]
  cases hlow : readWord 32 offset (code.drop offset) (1 + Bytecode.padding offset + 4) with
  | error cause => rfl
  | ok low =>
      cases hhigh : readWord 32 offset (code.drop offset) (1 + Bytecode.padding offset + 8) with
      | error cause => rfl
      | ok high =>
          simp only [ok_bind, ← toInt_ofNat (word?_lt (readWord_eq_ok_iff.1 hlow)),
            ← toInt_ofNat (word?_lt (readWord_eq_ok_iff.1 hhigh))]
          cases hcount : tableCount (UInt32.ofNat low).toInt32.toInt
              (UInt32.ofNat high).toInt32.toInt with
          | error cause =>
              obtain ⟨hnone, rfl⟩ := tableCount?_of_error hcount
              rw [hnone]
              rfl
          | ok count =>
              obtain ⟨word, hword, hvalue⟩ := exists_tableCount?_of_ok hcount
              rw [hword]
              exact switchLength_ofNat hoffset hvalue (Nat.le_refl 12) (by decide)

theorem lookupLength_ofNat (hoffset : offset < 2 ^ 32) :
    lookupLength code (UInt64.ofNat offset) =
      inWords (claimedLength offset lookupSwitch (code.drop offset)) := by
  have hpadding := padding_lt offset
  have hfour : (4 : UInt64) = UInt64.ofNat 4 := rfl
  have hopcode : lookupSwitch ≠ tableSwitch := by decide
  have hzero : (0 : Int32).toInt = 0 := rfl
  rw [lookupLength, operands_ofNat (by omega), ok_bind, hfour, signedBehind_ofNat (by omega)]
  simp only [claimedLength, hopcode, if_false, if_true]
  cases hcount : readWord 32 offset (code.drop offset) (1 + Bytecode.padding offset + 4) with
  | error cause => rfl
  | ok count =>
      have hbelow : count < 2 ^ 32 := word?_lt (readWord_eq_ok_iff.1 hcount)
      simp only [ok_bind, Int32.lt_iff_toInt_lt, hzero, toInt_ofNat hbelow]
      by_cases hnegative : signed32 count < 0
      · simp only [hnegative, if_true]
        rfl
      · have hvalue : (UInt32.ofNat count).toInt32.toInt = count := by
          rw [toInt_ofNat hbelow]
          unfold signed32 at hnegative ⊢
          split at hnegative <;> omega
        simp only [hnegative, if_false]
        exact switchLength_ofNat hoffset hvalue (by decide) (Nat.le_refl 8)

theorem wideLength_ofNat (hoffset : offset < 2 ^ 32) :
    wideLength code (UInt64.ofNat offset) =
      inWords (claimedLength offset wide (code.drop offset)) := by
  have htable : wide ≠ tableSwitch := by decide
  have hlookup : wide ≠ lookupSwitch := by decide
  have hnext : add (UInt64.ofNat offset) 1 = .ok (UInt64.ofNat (offset + 1)) :=
    add_ofNat (show offset + 1 < 2 ^ 64 by omega)
  simp only [wideLength, claimedLength, htable, hlookup, if_false, if_true, hnext, ok_bind,
    toNat_ofNat (show offset + 1 < 2 ^ 64 by omega), toNat_ofNat (show offset < 2 ^ 64 by omega),
    List.getElem?_drop]
  cases code[offset + 1]? with
  | none => rfl
  | some widened =>
      show Except.ok (if widened = increment then (6 : UInt64) else 4) =
        .ok (UInt64.ofNat (if widened = increment then 6 else 4))
      split <;> rfl

theorem claimed_ofNat (hoffset : offset < 2 ^ 32) (opcode : UInt8) :
    claimed code (UInt64.ofNat offset) opcode =
      inWords (claimedLength offset opcode (code.drop offset)) := by
  unfold claimed
  split
  · next htable =>
    rw [htable, tableLength_ofNat hoffset]
  · next htable =>
    split
    · next hlookup =>
      rw [hlookup, lookupLength_ofNat hoffset]
    · next hlookup =>
      split
      · next hwide =>
        rw [hwide, wideLength_ofNat hoffset]
      · next hwide =>
        rw [claimedLength_plain htable hlookup hwide]
        rfl

end Claimed

/-! ### Whole instructions -/

theorem plainLength_le (opcode : UInt8) : plainLength opcode ≤ 5 := by
  unfold plainLength
  simp only
  repeat' split
  all_goals decide

theorem claimedLength_lt {offset length : Nat} {opcode : UInt8} {bytes : Bytes}
    (h : claimedLength offset opcode bytes = .ok length) : length < 2 ^ 36 := by
  have hpadding := padding_lt offset
  by_cases htable : opcode = tableSwitch
  · subst htable
    obtain ⟨_, _, count, -, -, -, hroom, rfl⟩ := claimedLength_tableSwitch_eq_ok_iff.1 h
    omega
  by_cases hlookup : opcode = lookupSwitch
  · subst hlookup
    obtain ⟨count, hcount, -, rfl⟩ := claimedLength_lookupSwitch_eq_ok_iff.1 h
    have hbelow := word?_lt hcount
    omega
  by_cases hwide : opcode = wide
  · subst hwide
    obtain ⟨widened, -, hlength⟩ := claimedLength_wide_eq_ok_iff.1 h
    split at hlength <;> omega
  · rw [claimedLength_plain htable hlookup hwide, Except.ok.injEq] at h
    have := plainLength_le opcode
    omega

/-- In a body of less than `2 ^ 32` bytes no operation of the computation is without room, and the
length or the error is the one that the numbers themselves give. -/
theorem length_ofNat {code : Bytes} (hsize : code.length < 2 ^ 32) {offset : Nat}
    (hoffset : offset < 2 ^ 64) :
    length code (UInt64.ofNat offset) = inWords (instructionLength code offset) := by
  rw [length, toNat_ofNat hoffset, instructionLength]
  cases hopcode : code[offset]? with
  | none =>
      rw [List.drop_eq_nil_of_le (List.getElem?_eq_none_iff.1 hopcode)]
      rfl
  | some opcode =>
      obtain ⟨hinside, hat⟩ := List.getElem?_eq_some_iff.1 hopcode
      have hdrop : code.drop offset = opcode :: code.drop (offset + 1) := by
        rw [List.drop_eq_getElem_cons hinside, hat]
      simp only [claimed_ofNat (show offset < 2 ^ 32 by omega)]
      rw [hdrop, lengthAt, ← hdrop]
      cases hclaimed : claimedLength offset opcode (code.drop offset) with
      | error cause => rfl
      | ok length =>
          have hlength := claimedLength_lt hclaimed
          simp only [inWords, ok_bind, add_ofNat (show offset + length < 2 ^ 64 by omega),
            toNat_ofNat (show offset + length < 2 ^ 64 by omega), List.length_take,
            List.length_drop]
          by_cases hcut : code.length < offset + length
          · rw [if_pos hcut, if_pos (by omega)]
            rfl
          · rw [if_neg hcut, if_neg (by omega)]
            rfl

end Word

/-! ## Switches -/

variable {code : Bytes} {offset length : Nat}

/-- An instruction lies inside a body if its length is what it claims. -/
theorem instructionLength_eq_ok_iff {opcode : UInt8} (hopcode : code[offset]? = some opcode) :
    instructionLength code offset = .ok length ↔
      claimedLength offset opcode (code.drop offset) = .ok length ∧
        offset + length ≤ code.length := by
  obtain ⟨hinside, hat⟩ := List.getElem?_eq_some_iff.1 hopcode
  have hdrop : code.drop offset = opcode :: code.drop (offset + 1) := by
    rw [List.drop_eq_getElem_cons hinside, hat]
  rw [instructionLength, hdrop, lengthAt_cons_eq_ok_iff, ← hdrop, List.length_drop]
  refine and_congr_right fun _ => ?_
  omega

/-- A jump table over a range of keys has a length if its last key is not two or more below the
first one, and the whole table is there. -/
theorem instructionLength_tableSwitch_eq_ok_iff (hsize : code.length < 2 ^ 32)
    (hopcode : code[offset]? = some tableSwitch) :
    instructionLength code offset = .ok length ↔
      ∃ low high : Int32,
        slice? code (offset + 1 + padding offset + 4) 4 = some (signedBytes low) ∧
        slice? code (offset + 1 + padding offset + 8) 4 = some (signedBytes high) ∧
        0 ≤ high.toInt - low.toInt + 1 ∧
        (length : Int) = 1 + padding offset + 12 + 4 * (high.toInt - low.toInt + 1) ∧
        offset + length ≤ code.length := by
  rw [instructionLength_eq_ok_iff hopcode, claimedLength_tableSwitch_eq_ok_iff]
  simp only [word?_four_eq_some_iff, slice?_drop, ← Nat.add_assoc]
  constructor
  · rintro ⟨⟨_, _, count, ⟨low, hlow, rfl⟩, ⟨high, hhigh, rfl⟩, hcount, -, hlength⟩, hfits⟩
    rw [signed32_bigEndian_signedBytes, signed32_bigEndian_signedBytes] at hcount
    exact ⟨low, high, hlow, hhigh, by omega, by omega, hfits⟩
  · rintro ⟨low, high, hlow, hhigh, hcount, hlength, hfits⟩
    -- a table of `2 ^ 31` targets or more does not lie inside the body
    refine ⟨⟨_, _, (high.toInt - low.toInt + 1).toNat, ⟨low, hlow, rfl⟩, ⟨high, hhigh, rfl⟩,
      ?_, by omega, by omega⟩, hfits⟩
    rw [signed32_bigEndian_signedBytes, signed32_bigEndian_signedBytes]
    omega

/-- A jump table over a list of keys has a length if the number of its keys is not negative, and
the whole table is there. -/
theorem instructionLength_lookupSwitch_eq_ok_iff (hopcode : code[offset]? = some lookupSwitch) :
    instructionLength code offset = .ok length ↔
      ∃ count : Int32,
        slice? code (offset + 1 + padding offset + 4) 4 = some (signedBytes count) ∧
        0 ≤ count.toInt ∧
        (length : Int) = 1 + padding offset + 8 + 8 * count.toInt ∧
        offset + length ≤ code.length := by
  rw [instructionLength_eq_ok_iff hopcode, claimedLength_lookupSwitch_eq_ok_iff]
  simp only [word?_four_eq_some_iff, slice?_drop, ← Nat.add_assoc]
  constructor
  · rintro ⟨⟨_, ⟨count, hcount, rfl⟩, hpositive, hlength⟩, hfits⟩
    have hvalue := signed32_bigEndian_signedBytes count
    have hnatural := (Int.toNat_of_nonneg hpositive).symm
    have hsame := eq_of_signed32_eq (bigEndian_signedBytes_lt count) hnatural
    exact ⟨count, hcount, by omega, by omega, hfits⟩
  · rintro ⟨count, hcount, hpositive, hlength, hfits⟩
    have hvalue := signed32_bigEndian_signedBytes count
    rw [← hvalue] at hpositive
    have hnatural := (Int.toNat_of_nonneg hpositive).symm
    have hsame := eq_of_signed32_eq (bigEndian_signedBytes_lt count) hnatural
    exact ⟨⟨_, ⟨count, hcount, rfl⟩, hpositive, by omega⟩, hfits⟩

/-- The padding is the only number below four that leads to a multiple of four. -/
theorem eq_padding_iff {offset pad : Nat} :
    pad = padding offset ↔ pad < 4 ∧ 4 ∣ offset + 1 + pad := by
  have hlt := padding_lt offset
  have hdvd := four_dvd_add_padding offset
  constructor
  · rintro rfl
    exact ⟨hlt, hdvd⟩
  · rintro ⟨hpad, hpad'⟩
    omega

/-- In a body of less than `2 ^ 32` bytes a switch has the length that its words give as numbers,
if its count is not negative and all of it is there, and no length otherwise.  A machine that
computes it in words of 64 and 32 bits gets the same, with no operation that wraps. -/
theorem switch_length_exact (hsize : code.length < 2 ^ 32) (hoffset : offset < code.length) :
    (∀ pad, pad = padding offset ↔ pad < 4 ∧ 4 ∣ offset + 1 + pad) ∧
    (code[offset]? = some tableSwitch → ∀ length,
      instructionLength code offset = .ok length ↔
        ∃ low high : Int32,
          slice? code (offset + 1 + padding offset + 4) 4 = some (signedBytes low) ∧
          slice? code (offset + 1 + padding offset + 8) 4 = some (signedBytes high) ∧
          0 ≤ high.toInt - low.toInt + 1 ∧
          (length : Int) = 1 + padding offset + 12 + 4 * (high.toInt - low.toInt + 1) ∧
          offset + length ≤ code.length) ∧
    (code[offset]? = some lookupSwitch → ∀ length,
      instructionLength code offset = .ok length ↔
        ∃ count : Int32,
          slice? code (offset + 1 + padding offset + 4) 4 = some (signedBytes count) ∧
          0 ≤ count.toInt ∧
          (length : Int) = 1 + padding offset + 8 + 8 * count.toInt ∧
          offset + length ≤ code.length) ∧
    Word.length code (UInt64.ofNat offset) = inWords (instructionLength code offset) := by
  refine ⟨fun pad => eq_padding_iff, fun hopcode length => ?_, fun hopcode length => ?_,
    Word.length_ofNat hsize (by omega)⟩
  · exact instructionLength_tableSwitch_eq_ok_iff hsize hopcode
  · exact instructionLength_lookupSwitch_eq_ok_iff hopcode

/-- A table for the lowest key of all has one target.  Behind it, a list of as many keys as a
signed word can tell does not lie inside the body. -/
theorem switch_length_exact_extremes :
    let code : Bytes :=
      [0x00, 0xaa, 0, 0, 0, 0, 0, 19, 0x80, 0, 0, 0, 0x80, 0, 0, 0, 0, 0, 0, 19,
        0xab, 0, 0, 0, 0, 0, 0, 12, 0x7f, 0xff, 0xff, 0xff]
    code.length < 2 ^ 32 ∧ 1 < code.length ∧ 20 < code.length ∧
      instructionLength code 1 = .ok 19 ∧ Word.length code 1 = .ok 19 ∧
      (∀ length, instructionLength code 20 ≠ .ok length) ∧
      Word.length code 20 = .error (.refused (.truncated 0xab 20)) := by
  intro code
  have hsize : code.length < 2 ^ 32 := by decide
  have hfirst : 1 < code.length := by decide
  have hsecond : 20 < code.length := by decide
  obtain ⟨-, htable, -, hword⟩ := switch_length_exact hsize hfirst
  obtain ⟨-, -, hlookup, hrefused⟩ := switch_length_exact hsize hsecond
  have hlength : instructionLength code 1 = .ok 19 :=
    (htable rfl 19).2 ⟨Int32.minValue, Int32.minValue, by decide, by decide, by decide, by decide,
      by decide⟩
  refine ⟨hsize, hfirst, hsecond, hlength, ?_, fun length h => ?_, hrefused.trans rfl⟩
  · rw [hlength] at hword
    exact hword
  · obtain ⟨count, hcount, -, hclaimed, hfits⟩ := (hlookup rfl length).1 h
    have hbytes : signedBytes count = [0x7f, 0xff, 0xff, 0xff] := (Option.some.inj hcount).symm
    have hvalue : count.toInt = 2147483647 := by
      rw [← signed32_bigEndian_signedBytes, hbytes]
      decide
    have hend : code.length = 32 := rfl
    omega

end CallRedirect.Bytecode
