import CallRedirect.Proofs.Lifting
import CallRedirect.Proofs.Tiling
import CallRedirect.Proofs.Truncation

/-!
# Bodies put one behind the other

The bytes of an instruction mean the same wherever they stand, but for the alignment of a switch,
and that returns after every four bytes.  So what is decoded behind a multiple of four bytes is
what is decoded from the start, with all offsets moved (`lengthAt_add_eq_ok_iff`,
`walk_add_iff`).

A walk over the front of a body reads nothing of what stands behind it, and goes on with a walk
over the rest (`Walk.append_iff`).  Together this tells what is decoded from two bodies that are
put one behind the other (`decode_append`).  If the first one does NOT end at a multiple of four,
a switch in the second one is read at other bytes.
-/

namespace CallRedirect

/-! ## Moving what stands in a body -/

/-- A call that stands `count` bytes further behind. -/
def CallSite.moveBy (count : Nat) (call : CallSite) : CallSite :=
  { call with offset := UInt32.ofNat (call.offset.toNat + count) }

/-- An instruction that stands `count` bytes further behind, with its call. -/
def Instruction.moveBy (count : Nat) (instruction : Instruction) : Instruction where
  offset := UInt32.ofNat (instruction.offset.toNat + count)
  opcode := instruction.opcode
  call := instruction.call.map (·.moveBy count)

/-- An offset that is recorded in 32 bits is moved as if it was not. -/
theorem ofNat_toNat_ofNat_add (offset count : Nat) :
    UInt32.ofNat ((UInt32.ofNat offset).toNat + count) = UInt32.ofNat (offset + count) := by
  rw [← UInt32.toNat_inj, UInt32.toNat_ofNat', UInt32.toNat_ofNat', UInt32.toNat_ofNat',
    Nat.mod_add_mod]

namespace Bytecode

open ClassFile (ConstantPool)

variable {pool : ConstantPool} {offset length count : Nat} {opcode : UInt8} {bytes : Bytes}

/-! ## Instructions behind a multiple of four -/

theorem padding_add (h : 4 ∣ count) : padding (offset + count) = padding offset := by
  unfold padding
  omega

theorem claimedLength_add_eq_ok_iff (h : 4 ∣ count) :
    claimedLength (offset + count) opcode bytes = .ok length ↔
      claimedLength offset opcode bytes = .ok length := by
  by_cases htable : opcode = tableSwitch
  · subst htable
    rw [claimedLength_tableSwitch_eq_ok_iff, claimedLength_tableSwitch_eq_ok_iff, padding_add h]
  by_cases hlookup : opcode = lookupSwitch
  · subst hlookup
    rw [claimedLength_lookupSwitch_eq_ok_iff, claimedLength_lookupSwitch_eq_ok_iff, padding_add h]
  by_cases hwide : opcode = wide
  · subst hwide
    rw [claimedLength_wide_eq_ok_iff, claimedLength_wide_eq_ok_iff]
  · rw [claimedLength_plain htable hlookup hwide, claimedLength_plain htable hlookup hwide]

theorem lengthAt_add_eq_ok_iff (h : 4 ∣ count) :
    lengthAt (offset + count) bytes = .ok length ↔ lengthAt offset bytes = .ok length := by
  cases bytes with
  | nil => exact iff_of_false nofun nofun
  | cons opcode tail =>
      rw [lengthAt_cons_eq_ok_iff, lengthAt_cons_eq_ok_iff, claimedLength_add_eq_ok_iff h]

/-- The call of an instruction is the same wherever it stands, but for its offset. -/
theorem calls_add_iff {found : Option CallSite} :
    Calls pool (offset + count) opcode bytes found ↔
      ∃ call, Calls pool offset opcode bytes call ∧ call.map (·.moveBy count) = found := by
  unfold Calls
  cases CallKind.ofOpcode? opcode with
  | none =>
      constructor
      · rintro rfl
        exact ⟨none, rfl, rfl⟩
      · rintro ⟨call, rfl, rfl⟩
        rfl
  | some kind =>
      constructor
      · rintro ⟨index, reference, hindex, hrefers, rfl⟩
        refine ⟨_, ⟨index, reference, hindex, hrefers, rfl⟩, ?_⟩
        rw [Option.map_some, CallSite.moveBy, ofNat_toNat_ofNat_add]
      · rintro ⟨call, ⟨index, reference, hindex, hrefers, rfl⟩, rfl⟩
        refine ⟨index, reference, hindex, hrefers, ?_⟩
        rw [Option.map_some, CallSite.moveBy, ofNat_toNat_ofNat_add]

theorem decodeInstruction_add_eq_ok_iff {moved : Instruction} :
    decodeInstruction pool (offset + count) opcode bytes = .ok moved ↔
      ∃ instruction, decodeInstruction pool offset opcode bytes = .ok instruction ∧
        instruction.moveBy count = moved := by
  obtain ⟨place, code, found⟩ := moved
  simp only [decodeInstruction_eq_ok_iff, calls_add_iff]
  constructor
  · rintro ⟨rfl, rfl, call, hcall, rfl⟩
    refine ⟨⟨UInt32.ofNat offset, code, call⟩, ⟨rfl, rfl, hcall⟩, ?_⟩
    rw [Instruction.moveBy, ofNat_toNat_ofNat_add]
  · rintro ⟨⟨place, code, call⟩, ⟨rfl, rfl, hcall⟩, hmoved⟩
    rw [Instruction.moveBy, ofNat_toNat_ofNat_add] at hmoved
    cases hmoved
    exact ⟨rfl, rfl, call, hcall, rfl⟩

/-! ## Walks -/

/-- Once the first instruction is known, a walk goes on behind it. -/
theorem walk_cons_iff {tail : Bytes} {instruction : Instruction} {all : List Instruction}
    (hlength : lengthAt offset (opcode :: tail) = .ok length)
    (hinstruction : decodeInstruction pool offset opcode (opcode :: tail) = .ok instruction) :
    Walk pool offset (opcode :: tail) all ↔
      ∃ rest, Walk pool (offset + length) ((opcode :: tail).drop length) rest ∧
        instruction :: rest = all := by
  constructor
  · intro h
    cases h with
    | @cons _ found _ _ other rest hfound hother hrest =>
        obtain rfl : length = found := Except.ok.inj (hlength.symm.trans hfound)
        obtain rfl : instruction = other := Except.ok.inj (hinstruction.symm.trans hother)
        exact ⟨rest, hrest, rfl⟩
  · rintro ⟨rest, hrest, rfl⟩
    exact .cons hlength hinstruction hrest

/-- Behind a multiple of four bytes a walk is the same, with all its instructions moved. -/
theorem walk_add_iff (h : 4 ∣ count) {moved : List Instruction} :
    Walk pool (offset + count) bytes moved ↔
      ∃ instructions, Walk pool offset bytes instructions ∧
        instructions.map (·.moveBy count) = moved := by
  constructor
  · intro hwalk
    generalize hstart : offset + count = start at hwalk
    induction hwalk generalizing offset with
    | nil start => exact ⟨[], .nil offset, rfl⟩
    | @cons start length opcode tail _ _ hlength hinstruction _ ih =>
        subst hstart
        obtain ⟨instruction, hfirst, rfl⟩ := decodeInstruction_add_eq_ok_iff.1 hinstruction
        obtain ⟨rest, hrest, rfl⟩ := ih (Nat.add_right_comm offset length count)
        exact ⟨instruction :: rest, .cons ((lengthAt_add_eq_ok_iff h).1 hlength) hfirst hrest, rfl⟩
  · rintro ⟨instructions, hwalk, rfl⟩
    induction hwalk with
    | nil offset => exact .nil _
    | @cons offset length opcode tail instruction rest hlength hinstruction _ ih =>
        have hmoved : decodeInstruction pool (offset + count) opcode (opcode :: tail) =
            .ok (instruction.moveBy count) :=
          decodeInstruction_add_eq_ok_iff.2 ⟨instruction, hinstruction, rfl⟩
        rw [Nat.add_right_comm] at ih
        exact .cons ((lengthAt_add_eq_ok_iff h).2 hlength) hmoved ih

/-- A walk over the front of a body goes on with a walk over what stands behind it. -/
theorem Walk.append_iff {instructions all : List Instruction} {more : Bytes}
    (h : Walk pool offset bytes instructions) :
    Walk pool offset (bytes ++ more) all ↔
      ∃ others, Walk pool (offset + bytes.length) more others ∧ instructions ++ others = all := by
  induction h generalizing all with
  | nil offset =>
      constructor
      · intro hall
        exact ⟨all, hall, rfl⟩
      · rintro ⟨others, hothers, rfl⟩
        exact hothers
  | @cons offset length opcode tail instruction rest hlength hinstruction _ ih =>
      obtain ⟨-, hfits⟩ := lengthAt_bounds hlength
      -- the first instruction does not depend on what stands behind the body
      have hfirst : lengthAt offset (opcode :: (tail ++ more)) = .ok length :=
        ((lengthAt_eq_ok_iff_append more).1 hlength).1
      have hsame : decodeInstruction pool offset opcode (opcode :: (tail ++ more)) =
          .ok instruction := (decodeInstruction_append pool hlength more).trans hinstruction
      have hdrop : (opcode :: (tail ++ more)).drop length =
          (opcode :: tail).drop length ++ more := List.drop_append_of_le_length hfits
      have hend : offset + length + ((opcode :: tail).drop length).length =
          offset + (opcode :: tail).length := by
        rw [List.length_drop]
        omega
      rw [List.cons_append, walk_cons_iff hfirst hsame, hdrop]
      simp only [ih, hend, List.cons_append]
      constructor
      · rintro ⟨_, ⟨others, hothers, rfl⟩, rfl⟩
        exact ⟨others, hothers, rfl⟩
      · rintro ⟨others, hothers, rfl⟩
        exact ⟨_, ⟨others, hothers, rfl⟩, rfl⟩

/-- Offsets that are recorded in a body can be moved without wrapping, as long as what they are
moved to is below `2 ^ 32`. -/
theorem Walk.toNat_offset_moveBy {instructions : List Instruction}
    (h : Walk pool 0 bytes instructions) (hsize : count + bytes.length < 2 ^ 32) :
    ∀ instruction ∈ instructions,
      (instruction.moveBy count).offset.toNat = instruction.offset.toNat + count ∧
        ∀ call ∈ instruction.call,
          (call.moveBy count).offset.toNat = call.offset.toNat + count := by
  intro instruction hmem
  have hopcode := (h.forall_calls (by omega) instruction hmem).1
  obtain ⟨hinside, -⟩ := List.getElem?_eq_some_iff.1 hopcode
  have hbelow : instruction.offset.toNat + count < 2 ^ 32 := by omega
  have hmoved : (UInt32.ofNat (instruction.offset.toNat + count)).toNat =
      instruction.offset.toNat + count := UInt32.toNat_ofNat_of_lt' hbelow
  refine ⟨hmoved, fun call hcall => ?_⟩
  rw [CallSite.moveBy, (h.coherent instruction hmem).offset call hcall]
  exact hmoved

/-- Behind a body that is accepted and ends at a multiple of four, another one is accepted if and
only if it is accepted alone.  Its instructions and calls then come behind those of the first one
and are moved by the length of it, and no offset wraps in less than `2 ^ 32` bytes. -/
theorem decode_append {code more : Bytes} {instructions : List Instruction}
    (hcode : decode pool code = .ok instructions) (haligned : 4 ∣ code.length) :
    (∀ all, decode pool (code ++ more) = .ok all ↔
      ∃ others, decode pool more = .ok others ∧
        instructions ++ others.map (·.moveBy code.length) = all) ∧
    (code.length + more.length < 2 ^ 32 → ∀ others, decode pool more = .ok others →
      ∀ instruction ∈ others,
        (instruction.moveBy code.length).offset.toNat =
          instruction.offset.toNat + code.length ∧
        ∀ call ∈ instruction.call,
          (call.moveBy code.length).offset.toNat = call.offset.toNat + code.length) := by
  constructor
  · intro all
    have hwalk : Walk pool 0 code instructions := decodeFrom_eq_ok_iff.1 hcode
    simp only [decode, decodeFrom_eq_ok_iff, hwalk.append_iff, walk_add_iff haligned]
    constructor
    · rintro ⟨_, ⟨others, hothers, rfl⟩, rfl⟩
      exact ⟨others, hothers, rfl⟩
    · rintro ⟨others, hothers, rfl⟩
      exact ⟨_, ⟨others, hothers, rfl⟩, rfl⟩
  · intro hsize others hothers
    have hwalk : Walk pool 0 more others := decodeFrom_eq_ok_iff.1 hothers
    exact hwalk.toNat_offset_moveBy hsize

/-- Behind four bytes, a switch with two bytes of padding has two bytes of padding again, and the
invocation behind it is moved with its call. -/
theorem decode_append_switch :
    let pool : ConstantPool :=
      #[.empty, .methodRef 2 4, .classRef 3, .utf8 "p/B", .nameAndType 5 6, .utf8 "f",
        .utf8 "()V"]
    let call (offset : UInt32) : CallSite := ⟨"p/B", "f", "()V", .static, offset⟩
    let code : Bytes := [0x00, 0xb8, 0, 1]
    let more : Bytes := [0x00, 0xab, 0, 0, 0, 0, 0, 11, 0, 0, 0, 0, 0xb8, 0, 1]
    decode pool code = .ok [⟨0, 0x00, none⟩, ⟨1, 0xb8, some (call 1)⟩] ∧
      4 ∣ code.length ∧
      decode pool (code ++ more) = .ok [⟨0, 0x00, none⟩, ⟨1, 0xb8, some (call 1)⟩,
        ⟨4, 0x00, none⟩, ⟨5, 0xab, none⟩, ⟨16, 0xb8, some (call 16)⟩] ∧
      ∀ all, decode pool (code ++ [0x00, 0xb8]) ≠ .ok all := by
  intro pool call code more
  have hcode : decode pool code = .ok [⟨0, 0x00, none⟩, ⟨1, 0xb8, some (call 1)⟩] :=
    decodeFrom_cons_eq_ok_iff.2 ⟨1, _, _, rfl, rfl,
      decodeFrom_cons_eq_ok_iff.2 ⟨3, _, _, rfl, rfl, decodeFrom_nil pool 4, rfl⟩, rfl⟩
  have hmore : decode pool more =
      .ok [⟨0, 0x00, none⟩, ⟨1, 0xab, none⟩, ⟨12, 0xb8, some (call 12)⟩] :=
    decodeFrom_cons_eq_ok_iff.2 ⟨1, _, _, rfl, rfl,
      decodeFrom_cons_eq_ok_iff.2 ⟨11, _, _, rfl, rfl,
        decodeFrom_cons_eq_ok_iff.2 ⟨3, _, _, rfl, rfl, decodeFrom_nil pool 15, rfl⟩, rfl⟩, rfl⟩
  have haligned : 4 ∣ code.length := by decide
  refine ⟨hcode, haligned, ?_, fun all hall => ?_⟩
  · exact ((decode_append hcode haligned).1 _).2 ⟨_, hmore, rfl⟩
  · obtain ⟨others, hothers, -⟩ := ((decode_append hcode haligned).1 all).1 hall
    obtain ⟨length, -, rest, hlength, -, hrest, -⟩ := decodeFrom_cons_eq_ok_iff.1 hothers
    obtain rfl : 1 = length := Except.ok.inj hlength
    obtain ⟨_, -, -, hcut, -⟩ := decodeFrom_cons_eq_ok_iff.1 hrest
    cases hcut

end Bytecode

end CallRedirect
