import CallRedirect.Proofs.BytecodeWalk
import CallRedirect.Proofs.Words
import Mathlib.Logic.Basic

/-!
# Bodies that are cut off

An instruction reads its own bytes only, so the first bytes of a body hold the same instructions,
up to the one that is cut (`lengthAt_take_eq_ok_iff`, `decodeInstruction_take`).  A cut inside an
instruction is always found out, because all bytes of an instruction have to be there.

* `placeFrom` tells where the instructions of a body stand.  These places do not wrap; the offsets
  that instructions record are the same in bodies of less than `2 ^ 32` bytes
  (`Walk.placeFrom_eq_map`).
* `Seam` is the start of a body, its end, or the place of an instruction.  Up to a seam a body is
  decoded to the instructions in front of it (`Walk.take`), and up to no other place
  (`Walk.seam_of_take`).
-/

namespace CallRedirect.Bytecode

open ClassFile (ConstantPool)

/-! ## Instructions in front of other bytes -/

variable {pool : ConstantPool} {offset length : Nat} {opcode : UInt8} {bytes : Bytes}

/-- An instruction reads its own bytes only, so it claims the same length whatever stands
behind it. -/
theorem claimedLength_append_eq_ok_iff (hfits : length ≤ bytes.length) (more : Bytes) :
    claimedLength offset opcode (bytes ++ more) = .ok length ↔
      claimedLength offset opcode bytes = .ok length := by
  by_cases htable : opcode = tableSwitch
  · subst htable
    rw [claimedLength_tableSwitch_eq_ok_iff, claimedLength_tableSwitch_eq_ok_iff]
    refine exists_congr fun low => exists_congr fun high => exists_congr fun count => ?_
    by_cases hwords : 1 + padding offset + 12 ≤ bytes.length
    · rw [word?_append_of_le (by omega), word?_append_of_le (by omega)]
    · constructor
      · rintro ⟨-, -, -, -, hlength⟩
        omega
      · rintro ⟨-, -, -, -, hlength⟩
        omega
  by_cases hlookup : opcode = lookupSwitch
  · subst hlookup
    rw [claimedLength_lookupSwitch_eq_ok_iff, claimedLength_lookupSwitch_eq_ok_iff]
    refine exists_congr fun count => ?_
    by_cases hwords : 1 + padding offset + 8 ≤ bytes.length
    · rw [word?_append_of_le (by omega)]
    · constructor
      · rintro ⟨-, -, hlength⟩
        omega
      · rintro ⟨-, -, hlength⟩
        omega
  by_cases hwide : opcode = wide
  · subst hwide
    rw [claimedLength_wide_eq_ok_iff, claimedLength_wide_eq_ok_iff]
    refine exists_congr fun widened => ?_
    by_cases hnext : 1 < bytes.length
    · rw [List.getElem?_append_left hnext]
    · constructor
      · rintro ⟨-, hlength⟩
        split at hlength <;> omega
      · rintro ⟨-, hlength⟩
        split at hlength <;> omega
  · rw [claimedLength_plain htable hlookup hwide, claimedLength_plain htable hlookup hwide]

/-- The first bytes of a byte string hold an instruction if the byte string does and the
instruction is not longer. -/
theorem lengthAt_eq_ok_iff_append (more : Bytes) :
    lengthAt offset bytes = .ok length ↔
      lengthAt offset (bytes ++ more) = .ok length ∧ length ≤ bytes.length := by
  constructor
  · intro h
    obtain ⟨hpos, hfits⟩ := lengthAt_bounds h
    refine ⟨?_, hfits⟩
    cases bytes with
    | nil => cases h
    | cons opcode tail =>
        have hclaimed := (lengthAt_cons_eq_ok_iff.1 h).1
        have hlonger := (claimedLength_append_eq_ok_iff hfits more).2 hclaimed
        refine lengthAt_cons_eq_ok_iff.2 ⟨hlonger, ?_⟩
        show length ≤ (opcode :: tail ++ more).length
        rw [List.length_append]
        omega
  · rintro ⟨h, hfits⟩
    obtain ⟨hpos, -⟩ := lengthAt_bounds h
    cases bytes with
    | nil =>
        rw [List.length_nil] at hfits
        omega
    | cons opcode tail =>
        have hclaimed := (lengthAt_cons_eq_ok_iff.1 h).1
        exact lengthAt_cons_eq_ok_iff.2
          ⟨(claimedLength_append_eq_ok_iff hfits more).1 hclaimed, hfits⟩

/-- An invocation takes at least three bytes. -/
theorem three_le_of_lengthAt {kind : CallKind} {tail : Bytes}
    (hkind : CallKind.ofOpcode? opcode = some kind)
    (h : lengthAt offset (opcode :: tail) = .ok length) : 3 ≤ length := by
  obtain rfl := CallKind.opcode_of_ofOpcode? hkind
  have hclaimed := (lengthAt_cons_eq_ok_iff.1 h).1
  have hplain : claimedLength offset kind.opcode (kind.opcode :: tail) =
      .ok (plainLength kind.opcode) := by
    refine claimedLength_plain ?_ ?_ ?_ <;> cases kind <;> decide
  rw [hplain, Except.ok.injEq] at hclaimed
  rw [← hclaimed]
  cases kind <;> decide

theorem decodeInstruction_append (pool : ConstantPool) {tail : Bytes}
    (h : lengthAt offset (opcode :: tail) = .ok length) (more : Bytes) :
    decodeInstruction pool offset opcode (opcode :: tail ++ more) =
      decodeInstruction pool offset opcode (opcode :: tail) := by
  unfold decodeInstruction
  cases hkind : CallKind.ofOpcode? opcode with
  | none => rfl
  | some kind =>
      have hthree := three_le_of_lengthAt hkind h
      have hfits := (lengthAt_bounds h).2
      have hword : readWord 16 offset (opcode :: tail ++ more) 1 =
          readWord 16 offset (opcode :: tail) 1 := by
        rw [readWord, readWord, word?_append_of_le (by omega)]
      simp only [decodeCall, hword]

/-- The first bytes of a body hold the instruction at their front if all of it is there. -/
theorem lengthAt_take_eq_ok_iff {size : Nat} :
    lengthAt offset (bytes.take size) = .ok length ↔
      lengthAt offset bytes = .ok length ∧ length ≤ size := by
  rw [lengthAt_eq_ok_iff_append (bytes.drop size), List.take_append_drop, List.length_take]
  refine and_congr_right fun h => ?_
  have := (lengthAt_bounds h).2
  omega

theorem decodeInstruction_take {tail : Bytes} {size : Nat}
    (h : lengthAt offset (opcode :: tail.take size) = .ok length) :
    decodeInstruction pool offset opcode (opcode :: tail.take size) =
      decodeInstruction pool offset opcode (opcode :: tail) := by
  have happend := decodeInstruction_append pool h (tail.drop size)
  rw [List.cons_append, List.take_append_drop] at happend
  exact happend.symm

/-! ## Where instructions stand -/

/-- The instructions of the bytes from `offset` on, each with the offset at which it stands: every
instruction stands right behind the one before it. -/
def placeFrom (offset : Nat) (bytes : Bytes) : List Instruction → List (Nat × Instruction)
  | [] => []
  | instruction :: rest =>
      (offset, instruction) ::
        match lengthAt offset bytes with
        | .ok length => placeFrom (offset + length) (bytes.drop length) rest
        | .error _ => []

theorem placeFrom_cons {instruction : Instruction} {rest : List Instruction}
    (h : lengthAt offset bytes = .ok length) :
    placeFrom offset bytes (instruction :: rest) =
      (offset, instruction) :: placeFrom (offset + length) (bytes.drop length) rest := by
  rw [placeFrom, h]

namespace Walk

variable {instructions : List Instruction}

/-- Every instruction has a place. -/
theorem map_snd_placeFrom (h : Walk pool offset bytes instructions) :
    (placeFrom offset bytes instructions).map Prod.snd = instructions := by
  induction h with
  | nil offset => rfl
  | cons hlength _ _ ih => rw [placeFrom_cons hlength, List.map_cons, ih]

theorem le_of_mem_placeFrom (h : Walk pool offset bytes instructions) :
    ∀ placed ∈ placeFrom offset bytes instructions, offset ≤ placed.1 := by
  induction h with
  | nil offset => exact fun _ hmem => absurd hmem List.not_mem_nil
  | cons hlength _ _ ih =>
      intro placed hmem
      rw [placeFrom_cons hlength] at hmem
      rcases List.mem_cons.1 hmem with rfl | hmem
      · exact Nat.le_refl _
      · have := ih placed hmem
        omega

/-- In a body of less than `2 ^ 32` bytes the recorded offsets are the places. -/
theorem placeFrom_eq_map (h : Walk pool offset bytes instructions)
    (hsize : offset + bytes.length ≤ 2 ^ 32) :
    placeFrom offset bytes instructions =
      instructions.map fun instruction => (instruction.offset.toNat, instruction) := by
  induction h with
  | nil offset => rfl
  | @cons offset length opcode tail instruction rest hlength hinstruction _ ih =>
      have hbounds := lengthAt_bounds hlength
      have hhere : instruction.offset.toNat = offset :=
        toNat_offset_of_decodeInstruction hinstruction (by omega)
      rw [placeFrom_cons hlength, ih (by rw [List.length_drop]; omega), List.map_cons, hhere]

theorem mem_placeFrom_of_ne_nil (h : Walk pool offset bytes instructions) (hbytes : bytes ≠ []) :
    offset ∈ (placeFrom offset bytes instructions).map Prod.fst := by
  cases h with
  | nil => exact absurd rfl hbytes
  | cons hlength _ _ =>
      rw [placeFrom_cons hlength]
      exact List.mem_cons_self

end Walk

/-! ## Cutting a body -/

/-- The seams of a body: its start, its end and the places of its instructions. -/
def Seam (offset : Nat) (bytes : Bytes) (instructions : List Instruction) (size : Nat) : Prop :=
  size = 0 ∨ size = bytes.length ∨
    offset + size ∈ (placeFrom offset bytes instructions).map Prod.fst

/-- Behind its start, the seams of a body are those of what stands behind the first
instruction. -/
theorem seam_cons_iff {tail : Bytes} {instruction : Instruction} {rest : List Instruction}
    (hlength : lengthAt offset (opcode :: tail) = .ok length)
    (hrest : Walk pool (offset + length) ((opcode :: tail).drop length) rest) {size : Nat} :
    Seam offset (opcode :: tail) (instruction :: rest) size ↔
      size = 0 ∨ length ≤ size ∧
        Seam (offset + length) ((opcode :: tail).drop length) rest (size - length) := by
  obtain ⟨hpos, hfits⟩ := lengthAt_bounds hlength
  rw [Seam, Seam, placeFrom_cons hlength, List.length_drop, List.map_cons, List.mem_cons]
  refine or_congr_right' fun hstart => ?_
  constructor
  · rintro (hend | hhere | hplace)
    · exact ⟨by omega, .inr (.inl (by omega))⟩
    · omega
    · obtain ⟨placed, hplaced, hfst⟩ := List.mem_map.1 hplace
      have hle := hrest.le_of_mem_placeFrom placed hplaced
      have hsame : offset + length + (size - length) = offset + size := by omega
      exact ⟨by omega, .inr (.inr (hsame ▸ hplace))⟩
  · rintro ⟨hle, hnext | hend | hplace⟩
    · -- the start of the rest is the next instruction, or the end if there is none
      by_cases hnone : (opcode :: tail).drop length = []
      · rw [List.drop_eq_nil_iff] at hnone
        exact .inl (by omega)
      · have hsame : offset + length = offset + size := by omega
        exact .inr (.inr (hsame ▸ hrest.mem_placeFrom_of_ne_nil hnone))
    · exact .inl (by omega)
    · have hsame : offset + length + (size - length) = offset + size := by omega
      exact .inr (.inr (hsame ▸ hplace))

namespace Walk

variable {instructions : List Instruction}

/-- The bytes in front of a seam are a walk over the instructions that stand there. -/
theorem take (h : Walk pool offset bytes instructions) {size : Nat}
    (hseam : Seam offset bytes instructions size) :
    Walk pool offset (bytes.take size)
      (((placeFrom offset bytes instructions).filter (·.1 < offset + size)).map Prod.snd) := by
  induction h generalizing size with
  | nil offset =>
      rw [List.take_nil]
      exact .nil offset
  | @cons offset length opcode tail instruction rest hlength hinstruction hrest ih =>
      cases size with
      | zero =>
          have hnone : (placeFrom offset (opcode :: tail) (instruction :: rest)).filter
              (·.1 < offset + 0) = [] := by
            refine List.filter_eq_nil_iff.2 fun placed hplaced => ?_
            have := (Walk.cons hlength hinstruction hrest).le_of_mem_placeFrom placed hplaced
            simpa using this
          rw [hnone]
          exact .nil offset
      | succ size =>
          rcases (seam_cons_iff hlength hrest).1 hseam with hzero | ⟨hle, hlater⟩
          · cases hzero
          · have hshort : lengthAt offset (opcode :: tail.take size) = .ok length :=
              lengthAt_take_eq_ok_iff.2 ⟨hlength, hle⟩
            have hbehind := ih hlater
            have hsame : offset + length + (size + 1 - length) = offset + (size + 1) := by omega
            rw [hsame, ← List.drop_take] at hbehind
            rw [placeFrom_cons hlength, List.filter_cons_of_pos (by simp)]
            exact .cons hshort ((decodeInstruction_take hshort).trans hinstruction) hbehind

/-- The bytes in front of a cut are a walk only if the cut is a seam. -/
theorem seam_of_take (h : Walk pool offset bytes instructions) {size : Nat}
    (hsize : size ≤ bytes.length) {before : List Instruction}
    (hbefore : Walk pool offset (bytes.take size) before) :
    Seam offset bytes instructions size := by
  induction h generalizing size before with
  | nil offset => exact .inl (Nat.le_zero.1 hsize)
  | @cons offset length opcode tail instruction rest hlength _ hrest ih =>
      refine (seam_cons_iff hlength hrest).2 ?_
      cases size with
      | zero => exact .inl rfl
      | succ size =>
          right
          rw [List.take_succ_cons] at hbefore
          cases hbefore with
          | @cons _ found _ _ _ _ hfound _ hbehind =>
              rw [← List.take_succ_cons] at hfound hbehind
              obtain ⟨hsame, hle⟩ := lengthAt_take_eq_ok_iff.1 hfound
              -- the same instruction stands in front, so the cut is behind it
              obtain rfl : length = found := Except.ok.inj (hlength.symm.trans hsame)
              rw [List.drop_take] at hbehind
              refine ⟨hle, ih ?_ hbehind⟩
              rw [List.length_drop]
              omega

end Walk

/-- A body that is accepted is accepted up to each of its seams, with the instructions that stand
in front of it, and rejected up to any other place.  The places are the recorded offsets if the
body has less than `2 ^ 32` bytes, as each body of a class file has. -/
theorem decode_take {code : Bytes} {instructions : List Instruction}
    (hdecode : decode pool code = .ok instructions) {size : Nat} (hsize : size ≤ code.length) :
    let placed := placeFrom 0 code instructions
    (size = 0 ∨ size = code.length ∨ size ∈ placed.map Prod.fst →
      decode pool (code.take size) = .ok ((placed.filter (·.1 < size)).map Prod.snd)) ∧
    (¬ (size = 0 ∨ size = code.length ∨ size ∈ placed.map Prod.fst) →
      ∃ cause, decode pool (code.take size) = .error cause) ∧
    placed.map Prod.snd = instructions ∧
    (code.length < 2 ^ 32 →
      placed = instructions.map fun instruction => (instruction.offset.toNat, instruction)) := by
  intro placed
  have hwalk : Walk pool 0 code instructions := decodeFrom_eq_ok_iff.1 hdecode
  have hseam : Seam 0 code instructions size ↔
      size = 0 ∨ size = code.length ∨ size ∈ placed.map Prod.fst := by
    rw [Seam, Nat.zero_add]
  refine ⟨fun hcut => ?_, fun hcut => ?_, hwalk.map_snd_placeFrom, fun hshort => ?_⟩
  · have htaken := hwalk.take (hseam.2 hcut)
    rw [Nat.zero_add] at htaken
    exact decodeFrom_eq_ok_iff.2 htaken
  · cases htaken : decode pool (code.take size) with
    | error cause => exact ⟨cause, rfl⟩
    | ok before =>
        exact absurd (hseam.1 (hwalk.seam_of_take hsize (decodeFrom_eq_ok_iff.1 htaken))) hcut
  · exact hwalk.placeFrom_eq_map (by omega)

/-- A body of a switch and a return can be cut behind the switch, but not inside its table. -/
theorem decode_take_table :
    let code : Bytes :=
      [0xaa, 0, 0, 0, 0, 0, 0, 20, 0, 0, 0, 5, 0, 0, 0, 5, 0, 0, 0, 20, 0xb1]
    decode #[] code = .ok [⟨0, 0xaa, none⟩, ⟨20, 0xb1, none⟩] ∧
      decode #[] (code.take 20) = .ok [⟨0, 0xaa, none⟩] ∧
      ∃ cause, decode #[] (code.take 17) = .error cause := by
  intro code
  have hdecode : decode #[] code = .ok [⟨0, 0xaa, none⟩, ⟨20, 0xb1, none⟩] :=
    decodeFrom_cons_eq_ok_iff.2 ⟨20, _, _, rfl, rfl,
      decodeFrom_cons_eq_ok_iff.2 ⟨1, _, _, rfl, rfl, decodeFrom_nil _ 21, rfl⟩, rfl⟩
  have hbehind : 20 ≤ code.length := by decide
  have hinside : 17 ≤ code.length := by decide
  refine ⟨hdecode, ?_, ?_⟩
  · have htaken := (decode_take hdecode hbehind).1 (.inr (.inr (by decide)))
    exact htaken.trans (congrArg Except.ok (by decide))
  · exact (decode_take hdecode hinside).2.1 (by decide)

end CallRedirect.Bytecode
