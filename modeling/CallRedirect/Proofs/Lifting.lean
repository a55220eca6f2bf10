import CallRedirect.ClassFile.Lift
import CallRedirect.Proofs.BytecodeWalk
import CallRedirect.Proofs.Words

/-!
# Lifted method bodies

A class file gives the size of a method body in four bytes, so an offset inside
the body always fits in a word.  Therefore the instructions of a lifted class
have distinct offsets, and every call carries the offset of its instruction
(`wellPlaced_of_liftClass`).  Opcode and call of a lifted instruction agree
(`Instruction.Coherent`).

The size is found by following the readers of the class file: `Yields` says
what a reading step can give, whatever stands at the cursor.
-/

namespace CallRedirect

namespace ClassFile

/-- Whatever a reading step gives has a property. -/
def Parse.Yields {α : Type} (step : Parse α) (good : α → Prop) : Prop :=
  ∀ cursor value next, step cursor = .ok (value, next) → good value

namespace Parse

variable {α β : Type}

theorem yields_pure {value : α} {good : α → Prop} (h : good value) :
    (pure value : Parse α).Yields good := by
  intro cursor other next hrun
  cases hrun
  exact h

theorem yields_throw {cause : FormatError} {good : α → Prop} :
    (throw cause : Parse α).Yields good := by
  intro cursor value next hrun
  cases hrun

theorem Yields.bind {step : Parse α} {next : α → Parse β} {middle : α → Prop} {good : β → Prop}
    (hstep : step.Yields middle) (hnext : ∀ value, middle value → (next value).Yields good) :
    (step >>= next).Yields good := by
  intro cursor value finish hrun
  obtain ⟨⟨first, between⟩, hfirst, hsecond⟩ := bind_eq_ok_iff.1 hrun
  exact hnext first (hstep _ _ _ hfirst) _ _ _ hsecond

/-- What a step gives does not matter to the steps behind it. -/
theorem yields_bind {step : Parse α} {next : α → Parse β} {good : β → Prop}
    (hnext : ∀ value, (next value).Yields good) : (step >>= next).Yields good := by
  have hany : step.Yields (fun _ => True) := fun _ _ _ _ => trivial
  exact hany.bind fun value _ => hnext value

theorem yields_number (width : Nat) : (number width).Yields (· < 256 ^ width) := by
  intro cursor value next hrun
  unfold number at hrun
  split at hrun
  · next part hpart =>
    cases hrun
    have hlength := length_of_slice? hpart
    exact hlength ▸ bigEndian_lt part
  · cases hrun

theorem yields_chunk (length : Nat) : (chunk length).Yields (·.length = length) := by
  have hrequire : (require length).Yields (·.length = length) := by
    intro cursor part next hrun
    unfold require at hrun
    split at hrun
    · next hslice =>
      cases hrun
      exact length_of_slice? hslice
    · cases hrun
  exact hrequire.bind fun part hpart => yields_bind fun _ => yields_pure hpart

theorem yields_repeated {item : Parse α} {good : α → Prop} (hitem : item.Yields good)
    (count : Nat) : (repeated count item).Yields (∀ value ∈ ·, good value) := by
  induction count with
  | zero => exact yields_pure (by simp)
  | succ count ih =>
      refine Yields.bind hitem fun first hfirst => Yields.bind ih fun others hothers => ?_
      exact yields_pure (by simpa using ⟨hfirst, hothers⟩)

end Parse

/-! ## The size of a method body -/

/-- An attribute whose code, if it is one, has a size of four bytes. -/
def Attribute.Sized : Attribute → Prop
  | .code bytes => bytes.length < 2 ^ 32
  | .other _ => True

theorem yields_attributeContent (nested : Parse (List Attribute)) (depth : Nat) (name : String)
    (length : Nat) (layout : AttributeLayout) :
    (attributeContent nested depth name length layout).Yields Attribute.Sized := by
  cases layout with
  | code =>
      refine Parse.yields_bind fun _ => Parse.Yields.bind (Parse.yields_number 4) ?_
      intro size hsize
      refine Parse.Yields.bind (Parse.yields_chunk size) fun bytes hbytes => ?_
      refine Parse.yields_bind fun _ => Parse.yields_bind fun _ => Parse.yields_pure ?_
      show bytes.length < 2 ^ 32
      omega
  | rawAnnotations | rawElement =>
      exact Parse.yields_bind fun _ => Parse.yields_bind fun _ => Parse.yields_pure trivial
  | _ => exact Parse.yields_bind fun _ => Parse.yields_pure trivial

theorem yields_attributes (pool : ConstantPool) (depth : Nat) :
    (attributes pool depth).Yields (∀ entry ∈ ·, entry.Sized) := by
  cases depth with
  | zero => exact Parse.yields_bind fun _ => Parse.yields_throw
  | succ depth =>
      refine Parse.yields_bind fun count => Parse.yields_repeated ?_ count
      refine Parse.yields_bind fun _ => Parse.yields_bind fun name =>
        Parse.yields_bind fun length => ?_
      split
      · exact Parse.yields_throw
      · exact yields_attributeContent _ _ _ _ _

theorem yields_members (pool : ConstantPool) (depth : Nat) :
    (members pool depth).Yields
      (∀ member ∈ ·, ∀ code, member.code? = some code → code.length < 2 ^ 32) := by
  refine Parse.yields_bind fun count => Parse.yields_repeated ?_ count
  refine Parse.yields_bind fun flags => Parse.yields_bind fun name =>
    Parse.yields_bind fun descriptor =>
      Parse.Yields.bind (yields_attributes pool depth) fun list hlist => Parse.yields_pure ?_
  intro code hcode
  obtain ⟨entry, hentry, hfound⟩ := List.exists_of_findSome?_eq_some hcode
  have hsized := hlist entry hentry
  cases entry with
  | code bytes =>
      cases hfound
      exact hsized
  | other name => cases hfound

/-- The size of a method body fits in a word. -/
theorem length_code_lt {bytes code : Bytes} {file : Outline} {member : Member}
    (hparse : parse bytes = .ok file) (hmember : member ∈ file.methods)
    (hcode : member.code? = some code) : code.length < 2 ^ 32 := by
  have hfile (depth : Nat) : (classFile depth).Yields fun file =>
      ∀ member ∈ file.methods, ∀ code, member.code? = some code → code.length < 2 ^ 32 := by
    refine Parse.yields_bind fun number => ?_
    split
    · have hnever : (throw .notClassFile : Parse PUnit).Yields (fun _ => False) :=
        Parse.yields_throw
      exact hnever.bind fun _ habsurd => habsurd.elim
    · refine Parse.yields_bind fun _ => Parse.yields_bind fun pool => Parse.yields_bind fun _ =>
        Parse.yields_bind fun _ => Parse.yields_bind fun _ => Parse.yields_bind fun _ =>
        Parse.yields_bind fun _ => ?_
      refine Parse.Yields.bind (yields_members pool depth) fun methods hmethods => ?_
      exact Parse.yields_bind fun _ => Parse.yields_bind fun _ => Parse.yields_pure hmethods
  obtain ⟨⟨found, finish⟩, hrun, rfl⟩ := map_eq_ok_iff.1 hparse
  exact hfile _ _ _ _ hrun member hmember code hcode

end ClassFile

/-! ## Opcodes and calls -/

/-- The opcodes that call a named method: virtual, special, static and interface. -/
def invocationOpcodes : List UInt8 := [0xb6, 0xb7, 0xb8, 0xb9]

theorem CallKind.ofOpcode?_eq_none_iff {opcode : UInt8} :
    CallKind.ofOpcode? opcode = none ↔ opcode ∉ invocationOpcodes := by
  simp only [ofOpcode?, invocationOpcodes, List.mem_cons, List.not_mem_nil, or_false, not_or]
  repeat' split
  all_goals simp_all

theorem CallKind.opcode_mem_invocationOpcodes (kind : CallKind) :
    kind.opcode ∈ invocationOpcodes := by
  cases kind <;> decide

/-- The opcode, the call and the offset of an instruction agree: there is a call
exactly if the opcode makes one, the call is of the opcode's kind, and it stands
where the instruction stands. -/
structure Instruction.Coherent (instruction : Instruction) : Prop where
  invokes : instruction.call.isSome = true ↔ instruction.opcode ∈ invocationOpcodes
  kind : ∀ call ∈ instruction.call, CallKind.ofOpcode? instruction.opcode = some call.kind
  offset : ∀ call ∈ instruction.call, call.offset = instruction.offset

theorem Bytecode.Walk.coherent {pool : ClassFile.ConstantPool} {offset : Nat} {bytes : Bytes}
    {instructions : List Instruction} (h : Walk pool offset bytes instructions) :
    ∀ instruction ∈ instructions, instruction.Coherent := by
  intro instruction hmem
  obtain ⟨skip, opcode, tail, -, hdecode⟩ := h.exists_decodeInstruction instruction hmem
  obtain ⟨hoffset, rfl, hcalls⟩ := decodeInstruction_eq_ok_iff.1 hdecode
  unfold Calls at hcalls
  split at hcalls
  · next hnone =>
    have hplain := CallKind.ofOpcode?_eq_none_iff.1 hnone
    exact ⟨by simp [hcalls, hplain], by simp [hcalls], by simp [hcalls]⟩
  · next kind hkind =>
    obtain ⟨index, reference, -, -, hcall⟩ := hcalls
    have hinvokes : instruction.opcode ∈ invocationOpcodes :=
      CallKind.opcode_of_ofOpcode? hkind ▸ kind.opcode_mem_invocationOpcodes
    exact ⟨by simp [hcall, hinvokes], by simp [hcall, hkind], by simp [hcall, hoffset]⟩

/-! ## Where instructions and calls stand -/

/-- No two instructions of a method body stand at the same offset, and a call
stands where its instruction stands. -/
structure Method.WellPlaced (method : Method) : Prop where
  distinct : (method.code.map Instruction.offset).Nodup
  aligned : ∀ instruction ∈ method.code, ∀ call ∈ instruction.call,
    call.offset = instruction.offset

/-- All method bodies of a class are well placed. -/
def Class.WellPlaced (cls : Class) : Prop :=
  ∀ method ∈ cls.methods, method.WellPlaced

theorem Bytecode.Walk.wellPlaced {pool : ClassFile.ConstantPool} {code : Bytes}
    {method : Method} (h : Walk pool 0 code method.code) (hsize : code.length < 2 ^ 32) :
    method.WellPlaced where
  distinct := by
    have hordered := (h.pairwise_offset_lt (by omega)).1
    rw [List.Nodup, List.pairwise_map]
    exact hordered.imp fun hlt hsame => by simp [hsame] at hlt
  aligned := fun instruction hmem => (h.coherent instruction hmem).offset

/-- The instructions of every method of a lifted class were walked over from the
start of a body whose size fits in a word; a method without code has an empty one. -/
theorem exists_walk_of_liftClass {bytes : Bytes} {artifact : Int} {cls : Class}
    (h : liftClass bytes artifact = .ok cls) :
    ∀ method ∈ cls.methods, ∃ (pool : ClassFile.ConstantPool) (code : Bytes),
      code.length < 2 ^ 32 ∧ Bytecode.Walk pool 0 code method.code := by
  simp only [liftClass, bind_eq_ok_iff, mapError_eq_ok_iff, pure_eq_ok_iff] at h
  obtain ⟨file, hparse, name, -, methods, hmethods, rfl⟩ := h
  intro method hmethod
  obtain ⟨member, hmember, hlift⟩ := exists_of_mem_mapM hmethods method hmethod
  simp only [liftMethod, bind_eq_ok_iff, mapError_eq_ok_iff] at hlift
  obtain ⟨methodName, -, descriptor, -, hbody⟩ := hlift
  split at hbody
  · next code hcode =>
    simp only [bind_eq_ok_iff, mapError_eq_ok_iff, pure_eq_ok_iff] at hbody
    obtain ⟨instructions, hdecode, rfl⟩ := hbody
    have hwalk := Bytecode.decodeFrom_eq_ok_iff.1 hdecode
    exact ⟨file.pool, code, ClassFile.length_code_lt hparse hmember hcode, hwalk⟩
  · simp only [bind_eq_ok_iff, pure_eq_ok_iff, Except.ok.injEq] at hbody
    obtain ⟨instructions, rfl, rfl⟩ := hbody
    exact ⟨file.pool, [], by decide, Bytecode.Walk.nil 0⟩

/-- A class that comes from a class file is well placed. -/
theorem wellPlaced_of_liftClass {bytes : Bytes} {artifact : Int} {cls : Class}
    (h : liftClass bytes artifact = .ok cls) : cls.WellPlaced := by
  intro method hmethod
  obtain ⟨pool, code, hsize, hwalk⟩ := exists_walk_of_liftClass h method hmethod
  exact hwalk.wellPlaced hsize

end CallRedirect
