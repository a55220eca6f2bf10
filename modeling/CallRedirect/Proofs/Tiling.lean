import CallRedirect.Proofs.BytecodeWalk
import CallRedirect.Proofs.Words
import Mathlib.Logic.Basic
import Mathlib.Logic.ExistsUnique

/-!
# How instructions tile a method body

A body that is decoded falls into its instructions without gaps and overlaps.

* `TilesFrom` says that the instructions stand one right behind the other, each at the offset that
  it records, up to the end of the body.  Hence their offsets increase, and every byte belongs to
  exactly one of them.
* `Progress` is the state of the loop over a body.  A round that does not fail moves the offset
  forward and leaves the same to be found (`remaining_eq_round`), so the loop ends after at most as
  many rounds as there are bytes.

Offsets are recorded in 32 bits.  In a body of `2 ^ 32` bytes or more they would start anew; class
files do NOT have such bodies, and `decode_tiling` is about shorter ones.  Its statement on the
loop is about all byte strings.
-/

namespace CallRedirect.Bytecode

open ClassFile (ConstantPool)

/-! ## Tilings -/

/-- The instructions stand one right behind the other, from `offset` on up to the end. -/
def TilesFrom (code : Bytes) (offset : Nat) : List Instruction → Prop
  | [] => offset = code.length
  | instruction :: rest =>
      instruction.offset.toNat = offset ∧
        ∃ length, instructionLength code offset = .ok length ∧ 0 < length ∧
          TilesFrom code (offset + length) rest

/-- Whether a byte of a body belongs to an instruction. -/
def Covers (code : Bytes) (instruction : Instruction) (position : Nat) : Prop :=
  instruction.offset.toNat ≤ position ∧
    ∃ length, instructionLength code instruction.offset.toNat = .ok length ∧
      position < instruction.offset.toNat + length

/-- What the instructions of a body tell about its bytes: they tile it in order of their offsets,
every byte belongs to one of them, each has the opcode that stands at its offset, and each call is
what the two bytes behind the opcode lead to in the pool. -/
structure Tiling (pool : ConstantPool) (code : Bytes) (instructions : List Instruction) :
    Prop where
  tiles : TilesFrom code 0 instructions
  increasing : instructions.Pairwise fun earlier later => earlier.offset < later.offset
  covered : ∀ position < code.length, ∃! index : Nat, ∃ instruction,
    instructions[index]? = some instruction ∧ Covers code instruction position
  opcode : ∀ instruction ∈ instructions,
    code[instruction.offset.toNat]? = some instruction.opcode
  call : ∀ instruction ∈ instructions, ∀ call ∈ instruction.call, ∃ high low,
    code[instruction.offset.toNat + 1]? = some high ∧
      code[instruction.offset.toNat + 2]? = some low ∧
      pool.Refers (256 * high.toNat + low.toNat) ⟨call.owner, call.name, call.descriptor⟩

namespace TilesFrom

variable {code : Bytes} {offset : Nat} {instructions : List Instruction}

theorem le_offset (h : TilesFrom code offset instructions) :
    ∀ instruction ∈ instructions, offset ≤ instruction.offset.toNat := by
  induction instructions generalizing offset with
  | nil => exact fun _ hmem => absurd hmem List.not_mem_nil
  | cons instruction rest ih =>
      obtain ⟨hhere, length, -, -, hrest⟩ := h
      intro later hlater
      rcases List.mem_cons.1 hlater with rfl | hlater
      · exact Nat.le_of_eq hhere.symm
      · have := ih hrest later hlater
        omega

/-- Each instruction ends where a later one starts, or before it. -/
theorem pairwise_end_le (h : TilesFrom code offset instructions) :
    instructions.Pairwise fun earlier later =>
      ∀ length, instructionLength code earlier.offset.toNat = .ok length →
        0 < length ∧ earlier.offset.toNat + length ≤ later.offset.toNat := by
  induction instructions generalizing offset with
  | nil => exact List.Pairwise.nil
  | cons instruction rest ih =>
      obtain ⟨rfl, length, hlength, hpos, hrest⟩ := h
      refine List.pairwise_cons.2 ⟨fun later hlater found hfound => ?_, ih hrest⟩
      obtain rfl : length = found := Except.ok.inj (hlength.symm.trans hfound)
      exact ⟨hpos, hrest.le_offset later hlater⟩

theorem exists_length (h : TilesFrom code offset instructions) :
    ∀ instruction ∈ instructions, ∃ length,
      instructionLength code instruction.offset.toNat = .ok length := by
  induction instructions generalizing offset with
  | nil => exact fun _ hmem => absurd hmem List.not_mem_nil
  | cons instruction rest ih =>
      obtain ⟨rfl, length, hlength, -, hrest⟩ := h
      intro later hlater
      rcases List.mem_cons.1 hlater with rfl | hlater
      · exact ⟨length, hlength⟩
      · exact ih hrest later hlater

theorem increasing (h : TilesFrom code offset instructions) :
    instructions.Pairwise fun earlier later => earlier.offset < later.offset := by
  refine h.pairwise_end_le.imp_of_mem fun {earlier later} hearlier _ hend => ?_
  obtain ⟨length, hlength⟩ := h.exists_length earlier hearlier
  have := hend length hlength
  rw [UInt32.lt_iff_toNat_lt]
  omega

/-- Every byte from the first instruction on belongs to one. -/
theorem exists_covers (h : TilesFrom code offset instructions) {position : Nat}
    (hstart : offset ≤ position) (hend : position < code.length) :
    ∃ (index : Nat) (instruction : Instruction),
      instructions[index]? = some instruction ∧ Covers code instruction position := by
  induction instructions generalizing offset with
  | nil =>
      rw [TilesFrom] at h
      omega
  | cons instruction rest ih =>
      obtain ⟨rfl, length, hlength, -, hrest⟩ := h
      by_cases hhere : position < instruction.offset.toNat + length
      · exact ⟨0, instruction, rfl, hstart, length, hlength, hhere⟩
      · obtain ⟨index, later, hindex, hcovers⟩ := ih hrest (by omega)
        exact ⟨index + 1, later, hindex, hcovers⟩

/-- An instruction and a later one have no byte in common. -/
theorem not_lt_of_covers (h : TilesFrom code offset instructions) {position first second : Nat}
    {one other : Instruction} (hfirst : instructions[first]? = some one)
    (hsecond : instructions[second]? = some other) (hone : Covers code one position)
    (hother : Covers code other position) : ¬ first < second := by
  intro hlt
  obtain ⟨hf, rfl⟩ := List.getElem?_eq_some_iff.1 hfirst
  obtain ⟨hs, rfl⟩ := List.getElem?_eq_some_iff.1 hsecond
  obtain ⟨-, length, hlength, hbelow⟩ := hone
  have hend := List.pairwise_iff_getElem.1 h.pairwise_end_le first second hf hs hlt length hlength
  have hstart := hother.1
  omega

theorem existsUnique_covers (h : TilesFrom code 0 instructions) {position : Nat}
    (hposition : position < code.length) :
    ∃! index : Nat, ∃ instruction,
      instructions[index]? = some instruction ∧ Covers code instruction position := by
  obtain ⟨index, instruction, hindex, hcovers⟩ := h.exists_covers (Nat.zero_le _) hposition
  refine ⟨index, ⟨instruction, hindex, hcovers⟩, ?_⟩
  rintro other ⟨found, hother, hfound⟩
  have hbefore := h.not_lt_of_covers hother hindex hfound hcovers
  have hbehind := h.not_lt_of_covers hindex hother hcovers hfound
  omega

end TilesFrom

namespace Walk

variable {pool : ConstantPool} {code rest : Bytes} {offset : Nat} {instructions : List Instruction}

theorem tilesFrom (h : Walk pool offset rest instructions) (hrest : rest = code.drop offset)
    (hoffset : offset ≤ code.length) (hsize : code.length < 2 ^ 32) :
    TilesFrom code offset instructions := by
  induction h with
  | nil offset =>
      have hend := List.drop_eq_nil_iff.1 hrest.symm
      exact Nat.le_antisymm hoffset hend
  | @cons offset length opcode tail instruction rest hlength hinstruction _ ih =>
      obtain ⟨hpos, hfits⟩ := lengthAt_bounds hlength
      rw [hrest, List.length_drop] at hfits
      refine ⟨toNat_offset_of_decodeInstruction hinstruction (by omega), length, ?_, hpos, ?_⟩
      · rw [instructionLength, ← hrest, hlength]
      · refine ih ?_ (by omega)
        rw [hrest, List.drop_drop]

/-- Every instruction is decoded from the bytes at the offset that it records. -/
theorem forall_calls (h : Walk pool 0 code instructions) (hsize : code.length < 2 ^ 32) :
    ∀ instruction ∈ instructions,
      code[instruction.offset.toNat]? = some instruction.opcode ∧
        Calls pool instruction.offset.toNat instruction.opcode
          (code.drop instruction.offset.toNat) instruction.call := by
  intro instruction hmem
  obtain ⟨skip, opcode, tail, hdrop, hinstruction⟩ := h.exists_decodeInstruction instruction hmem
  rw [Nat.zero_add] at hinstruction
  have hinside := congrArg List.length hdrop
  rw [List.length_drop, List.length_cons] at hinside
  have hhere : instruction.offset.toNat = skip :=
    toNat_offset_of_decodeInstruction hinstruction (by omega)
  obtain ⟨-, rfl, hcalls⟩ := decodeInstruction_eq_ok_iff.1 hinstruction
  rw [hhere, hdrop]
  refine ⟨?_, hcalls⟩
  rw [← Nat.add_zero skip, ← List.getElem?_drop, hdrop]
  rfl

end Walk

/-! ## The loop -/

/-- Where the loop over a method body stands: the offset of the next instruction, and the ones
that were found in front of it. -/
structure Progress where
  offset : Nat
  found : List Instruction

namespace Progress

/-- Nothing is found yet. -/
def start : Progress := ⟨0, []⟩

/-- One round of the loop: the instruction at the offset, which has the given opcode, is found,
and the offset moves behind it. -/
def round (pool : ConstantPool) (code : Bytes) (progress : Progress) (opcode : UInt8) :
    Except DecodeError Progress := do
  let length ← (instructionLength code progress.offset).mapError .length
  let instruction ← decodeInstruction pool progress.offset opcode (code.drop progress.offset)
  return ⟨progress.offset + length, progress.found ++ [instruction]⟩

/-- The outcome of the loop, if it ends after at most so many rounds.  It ends with an error of a
round, or when the offset has left the body. -/
def outcome? (pool : ConstantPool) (code : Bytes) (progress : Progress) (rounds : Nat) :
    Option (Except DecodeError (List Instruction)) :=
  match code[progress.offset]? with
  | none => some (.ok progress.found)
  | some opcode =>
      match rounds with
      | 0 => none
      | rounds + 1 =>
          match progress.round pool code opcode with
          | .error cause => some (.error cause)
          | .ok next => next.outcome? pool code rounds

variable {pool : ConstantPool} {code : Bytes} {progress : Progress}

theorem outcome?_of_le (h : code.length ≤ progress.offset) (rounds : Nat) :
    progress.outcome? pool code rounds = some (.ok progress.found) := by
  rw [outcome?, List.getElem?_eq_none h]

theorem outcome?_succ {opcode : UInt8} (h : code[progress.offset]? = some opcode) (rounds : Nat) :
    progress.outcome? pool code (rounds + 1) =
      match progress.round pool code opcode with
      | .error cause => some (.error cause)
      | .ok next => next.outcome? pool code rounds := by
  rw [outcome?, h]

/-- What is decoded from the bytes that the loop has not come to, behind what it has found. -/
def remaining (pool : ConstantPool) (code : Bytes) (progress : Progress) :
    Except DecodeError (List Instruction) :=
  (decodeFrom pool progress.offset (code.drop progress.offset)).map (progress.found ++ ·)

theorem remaining_of_le (h : code.length ≤ progress.offset) :
    progress.remaining pool code = .ok progress.found := by
  rw [remaining, List.drop_eq_nil_of_le h, decodeFrom_nil]
  exact congrArg Except.ok (List.append_nil _)

theorem remaining_start (pool : ConstantPool) (code : Bytes) :
    start.remaining pool code = decode pool code := by
  show (decodeFrom pool 0 code).map ([] ++ ·) = decodeFrom pool 0 code
  cases decodeFrom pool 0 code <;> rfl

/-- A round that does not fail moves the offset forward and leaves the same to be found. -/
theorem remaining_eq_round (pool : ConstantPool) {opcode : UInt8}
    (h : code[progress.offset]? = some opcode) :
    (∃ cause, progress.round pool code opcode = .error cause ∧
        progress.remaining pool code = .error cause) ∨
      ∃ next, progress.round pool code opcode = .ok next ∧ progress.offset < next.offset ∧
        progress.remaining pool code = next.remaining pool code := by
  obtain ⟨hinside, hat⟩ := List.getElem?_eq_some_iff.1 h
  have hdrop : code.drop progress.offset = opcode :: code.drop (progress.offset + 1) := by
    rw [List.drop_eq_getElem_cons hinside, hat]
  rw [remaining, round, instructionLength, hdrop, decodeFrom_cons, ← hdrop]
  cases hlength : lengthAt progress.offset (code.drop progress.offset) with
  | error cause => exact .inl ⟨.length cause, rfl, rfl⟩
  | ok length =>
      cases hinstruction : decodeInstruction pool progress.offset opcode
          (code.drop progress.offset) with
      | error cause => exact .inl ⟨cause, rfl, rfl⟩
      | ok instruction =>
          have hpos := (lengthAt_bounds hlength).1
          refine .inr ⟨⟨progress.offset + length, progress.found ++ [instruction]⟩, rfl,
            Nat.lt_add_of_pos_right hpos, ?_⟩
          simp only [remaining, mapError_ok, ok_bind, List.drop_drop]
          cases decodeFrom pool (progress.offset + length)
              (code.drop (progress.offset + length)) with
          | error cause => rfl
          | ok instructions => exact congrArg Except.ok (List.append_cons _ _ _)

/-- As many rounds as there are bytes left are enough. -/
theorem outcome?_eq_remaining {rounds : Nat} (h : code.length ≤ progress.offset + rounds) :
    progress.outcome? pool code rounds = some (progress.remaining pool code) := by
  induction rounds generalizing progress with
  | zero => rw [outcome?_of_le h, remaining_of_le h]
  | succ rounds ih =>
      cases hopcode : code[progress.offset]? with
      | none =>
          have hend := List.getElem?_eq_none_iff.1 hopcode
          rw [outcome?_of_le hend, remaining_of_le hend]
      | some opcode =>
          rw [outcome?_succ hopcode]
          rcases remaining_eq_round pool hopcode with
            ⟨cause, hround, hremaining⟩ | ⟨next, hround, hforward, hremaining⟩
          · rw [hround, hremaining]
          · rw [hround, hremaining]
            exact ih (by omega)

end Progress

/-- A body of less than `2 ^ 32` bytes that is decoded is tiled by its instructions.  Whatever the
bytes are, the loop over them ends after at most as many rounds as there are bytes. -/
theorem decode_tiling (pool : ConstantPool) (code : Bytes) :
    (code.length < 2 ^ 32 → ∀ instructions, decode pool code = .ok instructions →
      Tiling pool code instructions) ∧
    Progress.start.outcome? pool code code.length = some (decode pool code) := by
  constructor
  · intro hsize instructions hdecode
    have hwalk : Walk pool 0 code instructions := decodeFrom_eq_ok_iff.1 hdecode
    have htiles := hwalk.tilesFrom rfl (Nat.zero_le _) hsize
    have hcalls := hwalk.forall_calls hsize
    refine ⟨htiles, htiles.increasing, fun position => htiles.existsUnique_covers,
      fun instruction hmem => (hcalls instruction hmem).1, fun instruction hmem call hcall => ?_⟩
    obtain ⟨index, hindex, hrefers⟩ := (hcalls instruction hmem).2.exists_refers hcall
    obtain ⟨high, low, hhigh, hlow, rfl⟩ := word?_two_eq_some_iff.1 hindex
    rw [List.getElem?_drop] at hhigh hlow
    exact ⟨high, low, hhigh, hlow, hrefers⟩
  · have hall : code.length ≤ Progress.start.offset + code.length := Nat.le_add_left _ _
    rw [Progress.outcome?_eq_remaining hall, Progress.remaining_start]

/-- A switch behind one byte takes nineteen bytes, and the invocation behind it stands at 20. -/
theorem decode_tiling_switch :
    let pool : ConstantPool :=
      #[.empty, .methodRef 2 4, .classRef 3, .utf8 "p/B", .nameAndType 5 6, .utf8 "f",
        .utf8 "()V"]
    let code : Bytes :=
      [0x00, 0xaa, 0, 0, 0, 0, 0, 19, 0, 0, 0, 5, 0, 0, 0, 5, 0, 0, 0, 19, 0xb6, 0, 1, 0xb1]
    let instructions : List Instruction :=
      [⟨0, 0x00, none⟩, ⟨1, 0xaa, none⟩,
        ⟨20, 0xb6, some ⟨"p/B", "f", "()V", .virtual, 20⟩⟩, ⟨23, 0xb1, none⟩]
    decode pool code = .ok instructions ∧ Tiling pool code instructions ∧
      Progress.start.outcome? pool code 24 = some (.ok instructions) := by
  intro pool code instructions
  have hdecode : decode pool code = .ok instructions :=
    decodeFrom_cons_eq_ok_iff.2 ⟨1, _, _, rfl, rfl,
      decodeFrom_cons_eq_ok_iff.2 ⟨19, _, _, rfl, rfl,
        decodeFrom_cons_eq_ok_iff.2 ⟨3, _, _, rfl, rfl,
          decodeFrom_cons_eq_ok_iff.2 ⟨1, _, _, rfl, rfl, decodeFrom_nil pool 24, rfl⟩, rfl⟩,
        rfl⟩, rfl⟩
  obtain ⟨htiling, hloop⟩ := decode_tiling pool code
  have hlength : code.length = 24 := rfl
  rw [hlength, hdecode] at hloop
  exact ⟨hdecode, htiling (by decide) instructions hdecode, hloop⟩

end CallRedirect.Bytecode
