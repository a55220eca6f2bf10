import CallRedirect.Proofs.BytecodeWalk
import CallRedirect.Proofs.Words
import Mathlib.Data.List.Forall2

/-!
# Assembling method bodies

The instruction set gives every opcode a layout of its operands.  This module
writes instructions down in that layout, independently of the decoder, and
shows that the decoder reads back what was written.

* `Form` is an instruction with its operands, `Form.Legal` says which of them
  the instruction set knows.
* `assemble` writes a program down from an offset on.  The operands of a switch
  start at a multiple of four, behind up to three bytes of any value.

Decoding an assembled program gives one instruction for each form, in order
(`decode_assemble`).  The proof follows the program; the offset is general,
because the layout of a switch depends on it.
-/

namespace CallRedirect.Bytecode

open ClassFile (ConstantPool MethodReference)

/-! ## The instruction set -/

/-- A run of opcodes whose operands take the same number of bytes. -/
structure OpcodeRange where
  first : UInt8
  last : UInt8
  operands : Nat

/-- The opcodes whose operands always take the same number of bytes.  The
switches, the four invocations of named methods and the widening opcode are laid
out on their own. -/
def plainOpcodes : List OpcodeRange := [
  ⟨0x00, 0x0f, 0⟩, -- constants without operand
  ⟨0x10, 0x10, 1⟩, -- bipush
  ⟨0x11, 0x11, 2⟩, -- sipush
  ⟨0x12, 0x12, 1⟩, -- ldc
  ⟨0x13, 0x14, 2⟩, -- ldc_w, ldc2_w
  ⟨0x15, 0x19, 1⟩, -- iload to aload
  ⟨0x1a, 0x35, 0⟩, -- loads of numbered locals and from arrays
  ⟨0x36, 0x3a, 1⟩, -- istore to astore
  ⟨0x3b, 0x83, 0⟩, -- stores of numbered locals and to arrays, stack, arithmetic
  ⟨0x84, 0x84, 2⟩, -- iinc
  ⟨0x85, 0x98, 0⟩, -- conversions, comparisons
  ⟨0x99, 0xa8, 2⟩, -- conditional jumps, goto, jsr
  ⟨0xa9, 0xa9, 1⟩, -- ret
  ⟨0xac, 0xb1, 0⟩, -- returns
  ⟨0xb2, 0xb5, 2⟩, -- fields
  ⟨0xba, 0xba, 4⟩, -- invokedynamic
  ⟨0xbb, 0xbb, 2⟩, -- new
  ⟨0xbc, 0xbc, 1⟩, -- newarray
  ⟨0xbd, 0xbd, 2⟩, -- anewarray
  ⟨0xbe, 0xbf, 0⟩, -- arraylength, athrow
  ⟨0xc0, 0xc1, 2⟩, -- checkcast, instanceof
  ⟨0xc2, 0xc3, 0⟩, -- monitorenter, monitorexit
  ⟨0xc5, 0xc5, 3⟩, -- multianewarray
  ⟨0xc6, 0xc7, 2⟩, -- ifnull, ifnonnull
  ⟨0xc8, 0xc9, 4⟩] -- goto_w, jsr_w

/-- The number of operand bytes of an opcode that always has the same number. -/
def operandSize? (opcode : UInt8) : Option Nat :=
  (plainOpcodes.find? fun range => range.first ≤ opcode ∧ opcode ≤ range.last).map (·.operands)

/-- The opcodes on a local variable whose number can be widened: loads, stores
and ret. -/
def localOpcodes : List UInt8 :=
  [0x15, 0x16, 0x17, 0x18, 0x19, 0x36, 0x37, 0x38, 0x39, 0x3a, 0xa9]

/-- An instruction with its operands. -/
inductive Form
  | plain (opcode : UInt8) (operands : Bytes)
  | invoke (kind : CallKind) (index : UInt16) (extra : Bytes)
  | widened (opcode : UInt8) (operands : Bytes)
  | table (filler : Fin 3 → UInt8) (fallback low high : Int32) (targets : List Int32)
  | lookup (filler : Fin 3 → UInt8) (fallback count : Int32) (pairs : List (Int32 × Int32))

namespace Form

/-- Whether an instruction is one of the instruction set, with all its operands.
A widened increment has two operands of two bytes, any other widened opcode one.
A table has a target for each key from its lowest to its highest. -/
def Legal : Form → Prop
  | plain opcode operands => operandSize? opcode = some operands.length
  | invoke kind _ extra => extra.length = if kind = .interface then 2 else 0
  | widened opcode operands =>
      (opcode ∈ localOpcodes ∧ operands.length = 2) ∨ (opcode = 0x84 ∧ operands.length = 4)
  | table _ _ low high targets =>
      low.toInt ≤ high.toInt ∧ (targets.length : Int) = high.toInt - low.toInt + 1
  | lookup _ _ count pairs => (pairs.length : Int) = count.toInt

instance : DecidablePred Legal
  | plain .. => inferInstanceAs (Decidable (_ = _))
  | invoke .. => inferInstanceAs (Decidable (_ = _))
  | widened .. => inferInstanceAs (Decidable (_ ∨ _))
  | table .. => inferInstanceAs (Decidable (_ ∧ _))
  | lookup .. => inferInstanceAs (Decidable (_ = _))

/-- The first byte of an instruction. -/
def opcode : Form → UInt8
  | plain opcode _ => opcode
  | invoke kind _ _ => kind.opcode
  | widened _ _ => 0xc4
  | table .. => 0xaa
  | lookup .. => 0xab

/-- The bytes that align the operands of a switch at `offset`. -/
def alignment (filler : Fin 3 → UInt8) (offset : Nat) : Bytes :=
  (List.ofFn filler).take (3 - offset % 4)

/-- The bytes behind the opcode of an instruction at `offset`. -/
def operands (offset : Nat) : Form → Bytes
  | plain _ operands => operands
  | invoke _ index extra => bytesOf 2 index.toNat ++ extra
  | widened opcode operands => opcode :: operands
  | table filler fallback low high targets =>
      alignment filler offset ++ (signedBytes fallback ++ (signedBytes low ++
        (signedBytes high ++ targets.flatMap signedBytes)))
  | lookup filler fallback count pairs =>
      alignment filler offset ++ (signedBytes fallback ++ (signedBytes count ++
        pairs.flatMap fun (key, target) => signedBytes key ++ signedBytes target))

/-- The bytes of an instruction at `offset`. -/
def encode (offset : Nat) (form : Form) : Bytes :=
  form.opcode :: form.operands offset

/-- The position of the method reference that an invocation names. -/
def reference? : Form → Option Nat
  | invoke _ index _ => some index.toNat
  | _ => none

/-- The call that an instruction at `offset` makes, where `method` tells what
the positions in the pool lead to. -/
def call? (method : Nat → MethodReference) (offset : UInt32) : Form → Option CallSite
  | invoke kind index _ =>
      let found := method index.toNat
      some ⟨found.owner, found.name, found.descriptor, kind, offset⟩
  | _ => none

end Form

/-- The bytes of a program that starts at `offset`. -/
def assemble (offset : Nat) : List Form → Bytes
  | [] => []
  | form :: rest =>
      form.encode offset ++ assemble (offset + (form.encode offset).length) rest

/-- The instructions of a program that starts at `offset`, with their offsets. -/
def place (offset : Nat) : List Form → List (Nat × Form)
  | [] => []
  | form :: rest => (offset, form) :: place (offset + (form.encode offset).length) rest

/-- A decoded instruction tells where an instruction stands, its opcode, and the
method that it calls if it is an invocation. -/
structure Records (method : Nat → MethodReference) (placed : Nat × Form)
    (instruction : Instruction) : Prop where
  offset : instruction.offset.toNat = placed.1
  opcode : instruction.opcode = placed.2.opcode
  call : instruction.call = placed.2.call? method instruction.offset

/-! ## Lengths of assembled instructions -/

/-- The table of operand sizes and the lengths that the decoder uses agree.  Both
are finite, so all opcodes are compared. -/
theorem operandSize?_eq (opcode : UInt8) :
    operandSize? opcode =
      if opcode ≤ 0xc9 ∧ opcode ≠ tableSwitch ∧ opcode ≠ lookupSwitch ∧ opcode ≠ wide ∧
          CallKind.ofOpcode? opcode = none then
        some (plainLength opcode - 1)
      else none := by
  have hall : ∀ byte : Fin 256, operandSize? (UInt8.ofFin byte) =
      if UInt8.ofFin byte ≤ 0xc9 ∧ UInt8.ofFin byte ≠ tableSwitch ∧
          UInt8.ofFin byte ≠ lookupSwitch ∧ UInt8.ofFin byte ≠ wide ∧
          CallKind.ofOpcode? (UInt8.ofFin byte) = none then
        some (plainLength (UInt8.ofFin byte) - 1)
      else none := by
    decide +kernel
  exact hall opcode.toFin

theorem operandSize?_eq_some_iff {opcode : UInt8} {size : Nat} :
    operandSize? opcode = some size ↔
      opcode ≤ 0xc9 ∧ opcode ≠ tableSwitch ∧ opcode ≠ lookupSwitch ∧ opcode ≠ wide ∧
        CallKind.ofOpcode? opcode = none ∧ plainLength opcode = size + 1 := by
  have hpos := plainLength_pos opcode
  rw [operandSize?_eq]
  split
  · next hplain =>
    obtain ⟨hdefined, htable, hlookup, hwide, hcall⟩ := hplain
    rw [Option.some.injEq]
    constructor
    · intro hsize
      exact ⟨hdefined, htable, hlookup, hwide, hcall, by omega⟩
    · rintro ⟨-, -, -, -, -, hsize⟩
      omega
  · next hplain =>
    simp only [reduceCtorEq, false_iff]
    rintro ⟨hdefined, htable, hlookup, hwide, hcall, -⟩
    exact hplain ⟨hdefined, htable, hlookup, hwide, hcall⟩

namespace Form

variable {form : Form} {offset : Nat}

@[simp] theorem length_alignment (filler : Fin 3 → UInt8) (offset : Nat) :
    (alignment filler offset).length = padding offset := by
  rw [alignment, List.length_take, List.length_ofFn, padding]
  omega

theorem length_flatMap_signedBytes (targets : List Int32) :
    (targets.flatMap signedBytes).length = 4 * targets.length := by
  simp [List.length_flatMap, Nat.mul_comm]

theorem length_flatMap_pairs (pairs : List (Int32 × Int32)) :
    (pairs.flatMap fun (key, target) => signedBytes key ++ signedBytes target).length =
      8 * pairs.length := by
  simp [List.length_flatMap, Nat.mul_comm]

/-- Behind the opcode and the alignment, the words of a switch stand one after
another. -/
theorem word?_switch (opcode : UInt8) (filler : Fin 3 → UInt8) (front : Bytes) (word : Int32)
    (after : Bytes) {skip : Nat} (hskip : skip = 1 + padding offset + front.length) :
    word? (opcode :: (alignment filler offset ++ (front ++ (signedBytes word ++ after)))) skip 4 =
      some (bigEndian (signedBytes word)) := by
  have hpieces : opcode :: (alignment filler offset ++ (front ++ (signedBytes word ++ after))) =
      (opcode :: alignment filler offset ++ front) ++ (signedBytes word ++ after) := by
    simp
  rw [hpieces]
  refine word?_append skip 4 after ?_ (length_signedBytes word)
  simp only [List.length_append, List.length_cons, length_alignment, hskip]
  omega

section Switches

variable (filler : Fin 3 → UInt8) (fallback : Int32) (more : Bytes)

theorem word?_low (low high : Int32) (targets : List Int32) :
    word? (encode offset (table filler fallback low high targets) ++ more)
      (1 + padding offset + 4) 4 = some (bigEndian (signedBytes low)) := by
  simpa [encode, operands, opcode] using word?_switch 0xaa filler (signedBytes fallback) low
    (signedBytes high ++ (targets.flatMap signedBytes ++ more)) (by simp)

theorem word?_high (low high : Int32) (targets : List Int32) :
    word? (encode offset (table filler fallback low high targets) ++ more)
      (1 + padding offset + 8) 4 = some (bigEndian (signedBytes high)) := by
  simpa [encode, operands, opcode] using word?_switch 0xaa filler
    (signedBytes fallback ++ signedBytes low) high (targets.flatMap signedBytes ++ more) (by simp)

theorem word?_count (count : Int32) (pairs : List (Int32 × Int32)) :
    word? (encode offset (lookup filler fallback count pairs) ++ more)
      (1 + padding offset + 4) 4 = some (bigEndian (signedBytes count)) := by
  simpa [encode, operands, opcode] using word?_switch 0xab filler (signedBytes fallback) count
    ((pairs.flatMap fun (key, target) => signedBytes key ++ signedBytes target) ++ more) (by simp)

end Switches

theorem length_encode_table (filler : Fin 3 → UInt8) (fallback low high : Int32)
    (targets : List Int32) :
    (encode offset (table filler fallback low high targets)).length =
      1 + padding offset + 12 + 4 * targets.length := by
  simp only [encode, operands, List.length_cons, List.length_append, length_alignment,
    length_signedBytes, length_flatMap_signedBytes]
  omega

theorem length_encode_lookup (filler : Fin 3 → UInt8) (fallback count : Int32)
    (pairs : List (Int32 × Int32)) :
    (encode offset (lookup filler fallback count pairs)).length =
      1 + padding offset + 8 + 8 * pairs.length := by
  simp only [encode, operands, List.length_cons, List.length_append, length_alignment,
    length_signedBytes, length_flatMap_pairs]
  omega

/-- The number of targets of a jump table. -/
def targetCount : Form → Nat
  | table _ _ _ _ targets => targets.length
  | _ => 0

theorem targetCount_le : 4 * form.targetCount ≤ (form.encode offset).length := by
  cases form with
  | table filler fallback low high targets =>
      rw [length_encode_table, targetCount]
      omega
  | plain | invoke | widened | lookup => exact Nat.zero_le _

/-- A legal instruction claims to be as long as it is, whatever stands behind it,
unless it is a jump table whose targets do not fit into their counter. -/
theorem claimedLength_encode_eq_ok_iff (hlegal : form.Legal) {more : Bytes} {length : Nat} :
    claimedLength offset form.opcode (form.encode offset ++ more) = .ok length ↔
      form.targetCount < 2 ^ 31 ∧ (form.encode offset).length = length := by
  cases form with
  | plain opcode operands =>
      obtain ⟨-, htable, hlookup, hwide, -, hlength⟩ := operandSize?_eq_some_iff.1 hlegal
      have hclaimed : claimedLength offset opcode (encode offset (plain opcode operands) ++ more) =
          .ok (plainLength opcode) :=
        claimedLength_plain htable hlookup hwide
      have hencoded : (encode offset (plain opcode operands)).length = plainLength opcode :=
        hlength.symm
      simp [Form.opcode, hclaimed, targetCount, hencoded]
  | invoke kind index extra =>
      have hopcode : kind.opcode ≠ tableSwitch ∧ kind.opcode ≠ lookupSwitch ∧
          kind.opcode ≠ wide := by
        cases kind <;> decide
      have hclaimed : claimedLength offset kind.opcode
          (encode offset (invoke kind index extra) ++ more) = .ok (plainLength kind.opcode) :=
        claimedLength_plain hopcode.1 hopcode.2.1 hopcode.2.2
      have hextra : extra.length = if kind = .interface then 2 else 0 := hlegal
      have hencoded : (encode offset (invoke kind index extra)).length =
          plainLength kind.opcode := by
        simp only [opcode, encode, operands, List.length_cons, List.length_append, length_bytesOf,
          hextra]
        cases kind <;> rfl
      simp [Form.opcode, hclaimed, targetCount, hencoded]
  | widened opcode operands =>
      have hencoded : (encode offset (widened opcode operands)).length =
          if opcode = increment then 6 else 4 := by
        rcases hlegal with ⟨hlocal, hlength⟩ | ⟨rfl, hlength⟩
        · have hother : opcode ≠ increment := by
            rintro rfl
            exact absurd hlocal (by decide)
          simp [encode, Form.operands, hlength, hother]
        · simp [encode, Form.operands, hlength, increment]
      have hnext : (encode offset (widened opcode operands) ++ more)[1]? = some opcode := rfl
      have hwide : Form.opcode (widened opcode operands) = wide := rfl
      rw [hwide, claimedLength_wide_eq_ok_iff]
      simp [hnext, targetCount, hencoded]
  | table filler fallback low high targets =>
      obtain ⟨-, hcount⟩ := hlegal
      have htable : Form.opcode (table filler fallback low high targets) = tableSwitch := rfl
      rw [htable, claimedLength_tableSwitch_eq_ok_iff, word?_low, word?_high, targetCount,
        length_encode_table]
      simp only [Option.some.injEq]
      constructor
      · -- the bounds are read back, so the decoder counts the targets that are there
        rintro ⟨_, _, count, rfl, rfl, hwords, hfits, hlength⟩
        rw [signed32_bigEndian_signedBytes, signed32_bigEndian_signedBytes] at hwords
        have hsame : count = targets.length := by omega
        exact ⟨hsame ▸ hfits, hsame ▸ hlength⟩
      · rintro ⟨hfits, hlength⟩
        refine ⟨_, _, targets.length, rfl, rfl, ?_, hfits, hlength⟩
        rw [signed32_bigEndian_signedBytes, signed32_bigEndian_signedBytes, hcount]
  | lookup filler fallback count pairs =>
      have hcount : (pairs.length : Int) = count.toInt := hlegal
      have hpairs : bigEndian (signedBytes count) = pairs.length :=
        eq_of_signed32_eq (bigEndian_signedBytes_lt count)
          ((signed32_bigEndian_signedBytes count).trans hcount.symm)
      have hsigned : 0 ≤ signed32 pairs.length := by
        rw [← hpairs, signed32_bigEndian_signedBytes]
        omega
      have hlookup : Form.opcode (lookup filler fallback count pairs) = lookupSwitch := rfl
      rw [hlookup, claimedLength_lookupSwitch_eq_ok_iff, word?_count, length_encode_lookup, hpairs]
      simp [targetCount, hsigned]

theorem lengthAt_encode (hlegal : form.Legal) (hsize : (form.encode offset).length < 2 ^ 32)
    (more : Bytes) :
    lengthAt offset (form.encode offset ++ more) = .ok (form.encode offset).length := by
  have hcons : form.encode offset ++ more = form.opcode :: (form.operands offset ++ more) := rfl
  have hcount : 4 * form.targetCount ≤ (form.encode offset).length := targetCount_le
  rw [hcons, lengthAt_cons_eq_ok_iff, ← hcons, claimedLength_encode_eq_ok_iff hlegal]
  exact ⟨⟨by omega, rfl⟩, by rw [List.length_append]; omega⟩

/-- Whatever length a legal instruction is taken to have is its length. -/
theorem length_of_lengthAt_encode {more : Bytes} {length : Nat} (hlegal : form.Legal)
    (h : lengthAt offset (form.encode offset ++ more) = .ok length) :
    length = (form.encode offset).length :=
  have hclaimed := (lengthAt_cons_eq_ok_iff.1 h).1
  ((claimedLength_encode_eq_ok_iff hlegal).1 hclaimed).2.symm

/-- Only the invocations of named methods have an opcode that makes a call. -/
theorem ofOpcode?_opcode (hlegal : form.Legal) :
    CallKind.ofOpcode? form.opcode =
      match form with
      | invoke kind _ _ => some kind
      | _ => none := by
  cases form with
  | plain opcode operands =>
      obtain ⟨-, -, -, -, hcall, -⟩ := operandSize?_eq_some_iff.1 hlegal
      exact hcall
  | invoke kind index extra => exact CallKind.ofOpcode?_opcode kind
  | widened opcode operands => rfl
  | table filler fallback low high targets => rfl
  | lookup filler fallback count pairs => rfl

/-- The two bytes behind the opcode of an invocation are its index. -/
theorem word?_encode_invoke (kind : CallKind) (index : UInt16) (extra more : Bytes) :
    word? (encode offset (invoke kind index extra) ++ more) 1 2 = some index.toNat := by
  have hpieces : encode offset (invoke kind index extra) ++ more =
      [kind.opcode] ++ (bytesOf 2 index.toNat ++ (extra ++ more)) := by
    simp [encode, operands, opcode]
  rw [hpieces, word?_append 1 2 _ rfl (length_bytesOf 2 _), bigEndian_bytesOf index.toNat_lt]

theorem calls_encode {pool : ConstantPool} {method : Nat → MethodReference}
    (hlegal : form.Legal)
    (hreference : ∀ index ∈ form.reference?, pool.Refers index (method index)) (more : Bytes) :
    Calls pool offset form.opcode (form.encode offset ++ more)
      (form.call? method (UInt32.ofNat offset)) := by
  rw [Calls, ofOpcode?_opcode hlegal]
  cases form with
  | invoke kind index extra =>
      exact ⟨index.toNat, method index.toNat, word?_encode_invoke kind index extra more,
        hreference _ rfl, rfl⟩
  | plain opcode operands => rfl
  | widened opcode operands => rfl
  | table filler fallback low high targets => rfl
  | lookup filler fallback count pairs => rfl

end Form

/-! ## Reading back -/

variable {pool : ConstantPool} {method : Nat → MethodReference}

/-- A program is walked one form at a time.  The induction is on the program, with
the offset general. -/
theorem walk_assemble {program : List Form} (offset : Nat)
    (hlegal : ∀ form ∈ program, form.Legal)
    (hreference : ∀ form ∈ program, ∀ index ∈ form.reference?, pool.Refers index (method index))
    (hsize : offset + (assemble offset program).length < 2 ^ 32) :
    ∃ instructions, Walk pool offset (assemble offset program) instructions ∧
      List.Forall₂ (Records method) (place offset program) instructions := by
  induction program generalizing offset with
  | nil => exact ⟨[], Walk.nil offset, List.Forall₂.nil⟩
  | cons form rest ih =>
      have hform := hlegal form List.mem_cons_self
      have hencoded : assemble offset (form :: rest) =
          form.encode offset ++ assemble (offset + (form.encode offset).length) rest := rfl
      rw [hencoded, List.length_append] at hsize
      obtain ⟨instructions, hwalk, hrecords⟩ :=
        ih (offset + (form.encode offset).length)
          (fun later hlater => hlegal later (List.mem_cons_of_mem _ hlater))
          (fun later hlater => hreference later (List.mem_cons_of_mem _ hlater)) (by omega)
      have hlength : lengthAt offset (assemble offset (form :: rest)) =
          .ok (form.encode offset).length :=
        Form.lengthAt_encode hform (by omega) _
      have hcalls : Calls pool offset form.opcode (assemble offset (form :: rest))
          (form.call? method (UInt32.ofNat offset)) :=
        Form.calls_encode hform (hreference form List.mem_cons_self) _
      refine ⟨⟨UInt32.ofNat offset, form.opcode, form.call? method (UInt32.ofNat offset)⟩ ::
        instructions, Walk.cons hlength (decodeInstruction_eq_ok_iff.2 ⟨rfl, rfl, hcalls⟩) ?_,
        List.Forall₂.cons ⟨?_, rfl, rfl⟩ hrecords⟩
      · -- what is left behind the first form is the rest of the program
        have hdrop : (assemble offset (form :: rest)).drop (form.encode offset).length =
            assemble (offset + (form.encode offset).length) rest := by
          rw [hencoded, List.drop_left]
        exact hdrop.symm ▸ hwalk
      · exact UInt32.toNat_ofNat_of_lt' (by simp only [UInt32.size]; omega)

/-- Decoding undoes assembling: a program of legal instructions, in which every
invocation names a method reference of the pool, is decoded to one instruction for
each of its forms. -/
theorem decode_assemble {program : List Form}
    (hlegal : ∀ form ∈ program, form.Legal)
    (hreference : ∀ form ∈ program, ∀ index ∈ form.reference?, pool.Refers index (method index))
    (hsize : (assemble 0 program).length < 2 ^ 32) :
    ∃ instructions, decode pool (assemble 0 program) = .ok instructions ∧
      List.Forall₂ (Records method) (place 0 program) instructions := by
  obtain ⟨instructions, hwalk, hrecords⟩ := walk_assemble 0 hlegal hreference (by omega)
  exact ⟨instructions, decodeFrom_eq_ok_iff.2 hwalk, hrecords⟩

/-- A switch behind one byte needs two bytes of alignment, and an invocation behind it is
read with its reference. -/
theorem decode_assemble_switch_invoke :
    let pool : ConstantPool :=
      #[.empty, .methodRef 2 4, .classRef 3, .utf8 "p/B", .nameAndType 5 6, .utf8 "f",
        .utf8 "()V"]
    let program : List Form :=
      [.plain 0x03 [], .table (fun _ => 0xff) 24 (-1) 0 [24, 25],
        .invoke .interface 1 [1, 0], .widened 0x84 [0, 1, 0, 2], .plain 0xb1 []]
    ∃ instructions, decode pool (assemble 0 program) = .ok instructions ∧
      List.Forall₂ (Records fun _ => ⟨"p/B", "f", "()V"⟩) (place 0 program) instructions := by
  intro pool program
  refine decode_assemble (by decide) ?_ (by decide)
  have hreference : pool.Refers 1 ⟨"p/B", "f", "()V"⟩ :=
    ⟨2, 4, 3, 5, 6, .inl rfl, rfl, rfl, rfl, rfl, rfl⟩
  simp [program, Form.reference?, hreference]

end CallRedirect.Bytecode
