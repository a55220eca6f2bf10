import CallRedirect.Bytecode.Decoder
import CallRedirect.Proofs.InstructionLength

/-!
# The walk over a method body

Decoding takes instructions off the front of the bytes, one after another.  The
relation `Walk` lists these steps without the errors; a body is decoded exactly
if the walk reaches its end (`decodeFrom_eq_ok_iff`).

A step reads the opcode, the length, and for an invocation the method reference,
which `ConstantPool.Refers` follows through the pool
(`decodeInstruction_eq_ok_iff`).  What holds at every step of a walk then holds
of every instruction of a decoded body.
-/

namespace CallRedirect

/-! ## Method references -/

namespace ClassFile

/-- The constant at a position leads to a method with the given texts. -/
def ConstantPool.Refers (pool : ConstantPool) (index : Nat) (method : MethodReference) : Prop :=
  ∃ owner nameAndType ownerName name descriptor,
    (pool[index]? = some (.methodRef owner nameAndType) ∨
      pool[index]? = some (.interfaceMethodRef owner nameAndType)) ∧
    pool[owner]? = some (.classRef ownerName) ∧
    pool[ownerName]? = some (.utf8 method.owner) ∧
    pool[nameAndType]? = some (.nameAndType name descriptor) ∧
    pool[name]? = some (.utf8 method.name) ∧
    pool[descriptor]? = some (.utf8 method.descriptor)

namespace ConstantPool

variable {pool : ConstantPool} {index : Nat}

theorem utf8_eq_ok_iff {text : String} :
    pool.utf8 index = .ok text ↔ pool[index]? = some (.utf8 text) := by
  unfold utf8
  split <;> simp_all

theorem className_eq_ok_iff {text : String} :
    pool.className index = .ok text ↔
      ∃ name, pool[index]? = some (.classRef name) ∧ pool[name]? = some (.utf8 text) := by
  unfold className
  split <;> simp_all [utf8_eq_ok_iff]

theorem methodParts_eq_ok_iff {parts : Nat × Nat} :
    pool.methodParts index = .ok parts ↔
      pool[index]? = some (.methodRef parts.1 parts.2) ∨
        pool[index]? = some (.interfaceMethodRef parts.1 parts.2) := by
  obtain ⟨owner, nameAndType⟩ := parts
  unfold methodParts
  split <;> simp_all

theorem nameAndTypeParts_eq_ok_iff {parts : Nat × Nat} :
    pool.nameAndTypeParts index = .ok parts ↔
      pool[index]? = some (.nameAndType parts.1 parts.2) := by
  obtain ⟨name, descriptor⟩ := parts
  unfold nameAndTypeParts
  split <;> simp_all

theorem methodReference_eq_ok_iff {method : MethodReference} :
    pool.methodReference index = .ok method ↔ pool.Refers index method := by
  simp only [methodReference, bind_eq_ok_iff, pure_eq_ok_iff, methodParts_eq_ok_iff,
    className_eq_ok_iff, nameAndTypeParts_eq_ok_iff, utf8_eq_ok_iff]
  constructor
  · rintro ⟨⟨owner, nameAndType⟩, hmember, _, ⟨ownerName, howner, hownerName⟩,
      ⟨name, descriptor⟩, hsignature, _, hname, _, hdescriptor, rfl⟩
    exact ⟨owner, nameAndType, ownerName, name, descriptor, hmember, howner, hownerName,
      hsignature, hname, hdescriptor⟩
  · rintro ⟨owner, nameAndType, ownerName, name, descriptor, hmember, howner, hownerName,
      hsignature, hname, hdescriptor⟩
    exact ⟨⟨owner, nameAndType⟩, hmember, _, ⟨ownerName, howner, hownerName⟩,
      ⟨name, descriptor⟩, hsignature, _, hname, _, hdescriptor, rfl⟩

end ConstantPool

end ClassFile

namespace Bytecode

open ClassFile (ConstantPool)

/-- The bytes from `offset` on are instructions without gaps. -/
inductive Walk (pool : ConstantPool) : Nat → Bytes → List Instruction → Prop
  | nil (offset : Nat) : Walk pool offset [] []
  | cons {offset length : Nat} {opcode : UInt8} {tail : Bytes} {instruction : Instruction}
      {rest : List Instruction}
      (hlength : lengthAt offset (opcode :: tail) = .ok length)
      (hinstruction : decodeInstruction pool offset opcode (opcode :: tail) = .ok instruction)
      (hrest : Walk pool (offset + length) ((opcode :: tail).drop length) rest) :
      Walk pool offset (opcode :: tail) (instruction :: rest)

theorem decodeFrom_nil (pool : ConstantPool) (offset : Nat) :
    decodeFrom pool offset [] = .ok [] := by
  rw [decodeFrom]

theorem decodeFrom_cons (pool : ConstantPool) (offset : Nat) (opcode : UInt8) (tail : Bytes) :
    decodeFrom pool offset (opcode :: tail) = do
      let length ← (lengthAt offset (opcode :: tail)).mapError .length
      let instruction ← decodeInstruction pool offset opcode (opcode :: tail)
      let instructions ← decodeFrom pool (offset + length) ((opcode :: tail).drop length)
      return instruction :: instructions := by
  rw [decodeFrom]
  split
  · next cause hlength =>
    rw [hlength]
    rfl
  · next length hlength =>
    rw [hlength]
    rfl

theorem decodeFrom_cons_eq_ok_iff {pool : ConstantPool} {offset : Nat} {opcode : UInt8}
    {tail : Bytes} {instructions : List Instruction} :
    decodeFrom pool offset (opcode :: tail) = .ok instructions ↔
      ∃ length instruction rest,
        lengthAt offset (opcode :: tail) = .ok length ∧
        decodeInstruction pool offset opcode (opcode :: tail) = .ok instruction ∧
        decodeFrom pool (offset + length) ((opcode :: tail).drop length) = .ok rest ∧
        instruction :: rest = instructions := by
  simp only [decodeFrom_cons, bind_eq_ok_iff, pure_eq_ok_iff, mapError_eq_ok_iff]
  constructor
  · rintro ⟨length, hlength, instruction, hinstruction, rest, hrest, rfl⟩
    exact ⟨length, instruction, rest, hlength, hinstruction, hrest, rfl⟩
  · rintro ⟨length, instruction, rest, hlength, hinstruction, hrest, rfl⟩
    exact ⟨length, hlength, instruction, hinstruction, rest, hrest, rfl⟩

theorem decodeFrom_eq_ok_iff {pool : ConstantPool} {offset : Nat} {bytes : Bytes}
    {instructions : List Instruction} :
    decodeFrom pool offset bytes = .ok instructions ↔ Walk pool offset bytes instructions := by
  constructor
  · -- by the number of bytes that are left, which every step lowers
    intro h
    induction hsize : bytes.length using Nat.strongRecOn generalizing offset bytes instructions with
    | ind size ih =>
        cases bytes with
        | nil =>
            rw [decodeFrom_nil, Except.ok.injEq] at h
            exact h ▸ Walk.nil offset
        | cons opcode tail =>
            obtain ⟨length, instruction, rest, hlength, hinstruction, hrest, rfl⟩ :=
              decodeFrom_cons_eq_ok_iff.1 h
            have hbounds := lengthAt_bounds hlength
            refine Walk.cons hlength hinstruction (ih _ ?_ hrest rfl)
            rw [List.length_drop]
            omega
  · intro h
    induction h with
    | nil offset => exact decodeFrom_nil pool offset
    | cons hlength hinstruction _ ih =>
        exact decodeFrom_cons_eq_ok_iff.2 ⟨_, _, _, hlength, hinstruction, ih, rfl⟩

theorem decodeCall_eq_ok_iff {pool : ConstantPool} {kind : CallKind} {offset : Nat}
    {rest : Bytes} {call : CallSite} :
    decodeCall pool kind offset rest = .ok call ↔
      ∃ index reference,
        word? rest 1 2 = some index ∧ pool.Refers index reference ∧
        call = ⟨reference.owner, reference.name, reference.descriptor, kind,
          UInt32.ofNat offset⟩ := by
  simp only [decodeCall, bind_eq_ok_iff, mapError_eq_ok_iff, readWord_eq_ok_iff,
    ConstantPool.methodReference_eq_ok_iff, pure_eq_ok_iff]
  constructor
  · rintro ⟨index, hindex, reference, hreference, rfl⟩
    exact ⟨index, reference, hindex, hreference, rfl⟩
  · rintro ⟨index, reference, hindex, hreference, rfl⟩
    exact ⟨index, hindex, reference, hreference, rfl⟩

/-- What the opcode of an instruction says about its call: there is none unless
the opcode is one of the four invocations, which name a method reference. -/
def Calls (pool : ConstantPool) (offset : Nat) (opcode : UInt8) (rest : Bytes)
    (call : Option CallSite) : Prop :=
  match CallKind.ofOpcode? opcode with
  | none => call = none
  | some kind => ∃ index reference,
      word? rest 1 2 = some index ∧ pool.Refers index reference ∧
      call = some ⟨reference.owner, reference.name, reference.descriptor, kind,
        UInt32.ofNat offset⟩

/-- A call is resolved through the index behind the opcode. -/
theorem Calls.exists_refers {pool : ConstantPool} {offset : Nat} {opcode : UInt8} {rest : Bytes}
    {found : Option CallSite} (h : Calls pool offset opcode rest found) {call : CallSite}
    (hcall : call ∈ found) :
    ∃ index, word? rest 1 2 = some index ∧
      pool.Refers index ⟨call.owner, call.name, call.descriptor⟩ := by
  rw [Calls] at h
  split at h
  · rw [h] at hcall
    cases hcall
  · obtain ⟨index, reference, hindex, hrefers, rfl⟩ := h
    obtain rfl := Option.some.inj hcall
    exact ⟨index, hindex, hrefers⟩

theorem decodeInstruction_eq_ok_iff {pool : ConstantPool} {offset : Nat} {opcode : UInt8}
    {rest : Bytes} {instruction : Instruction} :
    decodeInstruction pool offset opcode rest = .ok instruction ↔
      instruction.offset = UInt32.ofNat offset ∧ instruction.opcode = opcode ∧
        Calls pool offset opcode rest instruction.call := by
  unfold decodeInstruction Calls
  cases CallKind.ofOpcode? opcode with
  | none =>
      simp only [bind_eq_ok_iff, pure_eq_ok_iff, Except.ok.injEq]
      constructor
      · rintro ⟨_, rfl, rfl⟩
        exact ⟨rfl, rfl, rfl⟩
      · rintro ⟨hoffset, hopcode, hcall⟩
        exact ⟨none, rfl, by rw [← hoffset, ← hopcode, ← hcall]⟩
  | some kind =>
      simp only [bind_eq_ok_iff, pure_eq_ok_iff, map_eq_ok_iff, decodeCall_eq_ok_iff]
      constructor
      · rintro ⟨_, ⟨call, ⟨index, reference, hindex, hreference, rfl⟩, rfl⟩, rfl⟩
        exact ⟨rfl, rfl, index, reference, hindex, hreference, rfl⟩
      · rintro ⟨hoffset, hopcode, index, reference, hindex, hreference, hcall⟩
        exact ⟨_, ⟨_, ⟨index, reference, hindex, hreference, rfl⟩, rfl⟩,
          by rw [← hcall, ← hoffset, ← hopcode]⟩

/-- An instruction records the offset at which it stands, if that fits into 32 bits. -/
theorem toNat_offset_of_decodeInstruction {pool : ConstantPool} {offset : Nat} {opcode : UInt8}
    {rest : Bytes} {instruction : Instruction}
    (h : decodeInstruction pool offset opcode rest = .ok instruction) (hsize : offset < 2 ^ 32) :
    instruction.offset.toNat = offset := by
  obtain ⟨hoffset, -, -⟩ := decodeInstruction_eq_ok_iff.1 h
  rw [hoffset, UInt32.toNat_ofNat_of_lt' hsize]

namespace Walk

variable {pool : ConstantPool} {offset : Nat} {bytes : Bytes} {instructions : List Instruction}

/-- The instructions of a walk stand in order of their offsets, which lie inside
the bytes. -/
theorem pairwise_offset_lt (h : Walk pool offset bytes instructions)
    (hsize : offset + bytes.length ≤ 2 ^ 32) :
    instructions.Pairwise (fun earlier later => earlier.offset.toNat < later.offset.toNat) ∧
      ∀ instruction ∈ instructions, offset ≤ instruction.offset.toNat := by
  induction h with
  | nil offset => exact ⟨List.Pairwise.nil, by simp⟩
  | @cons offset length opcode tail instruction rest hlength hinstruction _ ih =>
      have hbounds := lengthAt_bounds hlength
      have hhere : instruction.offset.toNat = offset :=
        toNat_offset_of_decodeInstruction hinstruction (by omega)
      obtain ⟨hordered, hbehind⟩ := ih (by rw [List.length_drop]; omega)
      refine ⟨List.pairwise_cons.2 ⟨fun later hlater => ?_, hordered⟩, ?_⟩
      · have := hbehind later hlater
        omega
      · intro later hlater
        rcases List.mem_cons.1 hlater with rfl | hlater
        · omega
        · have := hbehind later hlater
          omega

/-- Every instruction of a walk was decoded from bytes of the walk, at the offset at which they
stand. -/
theorem exists_decodeInstruction (h : Walk pool offset bytes instructions) :
    ∀ instruction ∈ instructions, ∃ skip opcode tail, bytes.drop skip = opcode :: tail ∧
      decodeInstruction pool (offset + skip) opcode (opcode :: tail) = .ok instruction := by
  induction h with
  | nil offset => simp
  | @cons offset length opcode tail instruction rest _ hinstruction _ ih =>
      intro later hlater
      rcases List.mem_cons.1 hlater with rfl | hlater
      · exact ⟨0, opcode, tail, rfl, hinstruction⟩
      · obtain ⟨skip, found, behind, hdrop, hdecode⟩ := ih later hlater
        refine ⟨length + skip, found, behind, ?_, ?_⟩
        · rw [← hdrop, List.drop_drop]
        · rw [← hdecode, Nat.add_assoc]

end Walk

end Bytecode

end CallRedirect
