import CallRedirect.ClassFile.Lift
import CallRedirect.Proofs.Assembly

/-!
# Which method bodies are rejected

A method body is legal if it can be assembled from instructions of the
instruction set, with references that the constant pool resolves
(`LegalCode`).  A legal body is accepted; this is the reading-back theorem of the
assembler.  Conversely, an accepted body is legal up to three kinds of
instruction that the decoder takes although the instruction set does not have
them (`Stray`):

* opcodes behind the last one that is defined count as one byte,
* any opcode can be widened,
* a jump table can have no targets.

The walk looks at the bytes from a boundary on (`Boundary`), and a body without a
stray at any boundary is accepted only if it is legal (`decode_accepts_iff`).
-/

namespace CallRedirect

namespace Bytecode

open ClassFile (ConstantPool MethodReference)

/-! ## Legal bodies -/

/-- Whether the pool resolves the method reference that an instruction names. -/
def Form.Resolves (pool : ConstantPool) (form : Form) : Prop :=
  ∀ index ∈ form.reference?, ∃ method, pool.Refers index method

theorem Form.resolves_of_reference?_eq_none {pool : ConstantPool} {form : Form}
    (h : form.reference? = none) : form.Resolves pool := by
  intro index hindex
  rw [h] at hindex
  cases hindex

/-- A method body is legal if it is a sequence of complete legal instructions. -/
def LegalCode (pool : ConstantPool) (code : Bytes) : Prop :=
  ∃ program, (∀ form ∈ program, Form.Legal form ∧ form.Resolves pool) ∧
    assemble 0 program = code

/-- The offsets of a method body at which an instruction is looked for. -/
inductive Boundary (code : Bytes) : Nat → Prop
  | start : Boundary code 0
  | next {offset length : Nat} (hbefore : Boundary code offset)
      (hlength : instructionLength code offset = .ok length) :
      Boundary code (offset + length)

/-- An instruction at the front of the bytes from `offset` on that is taken
although the instruction set does not have it. -/
inductive Stray (offset : Nat) (rest : Bytes) : Prop
  | undefined {opcode : UInt8} (hfirst : rest[0]? = some opcode) (hbeyond : 0xc9 < opcode)
  | widened {opcode : UInt8} (hfirst : rest[0]? = some 0xc4) (hnext : rest[1]? = some opcode)
      (hlocal : opcode ∉ localOpcodes) (hincrement : opcode ≠ 0x84)
  | emptyTable {low high : Nat} (hfirst : rest[0]? = some 0xaa)
      (hlow : word? rest (1 + padding offset + 4) 4 = some low)
      (hhigh : word? rest (1 + padding offset + 8) 4 = some high)
      (hempty : signed32 high = signed32 low - 1)

/-! ## Legal instructions are not strays -/

theorem not_stray_nil (offset : Nat) : ¬ Stray offset [] := by
  rintro (⟨hfirst, -⟩ | ⟨hfirst, -, -, -⟩ | ⟨hfirst, -, -, -⟩) <;> cases hfirst

namespace Form

variable {form : Form} {offset : Nat}

theorem opcode_le (hlegal : form.Legal) : form.opcode ≤ 0xc9 := by
  cases form with
  | plain opcode operands => exact (operandSize?_eq_some_iff.1 hlegal).1
  | invoke kind index extra => cases kind <;> exact of_decide_eq_true rfl
  | widened | table | lookup => exact of_decide_eq_true rfl

theorem exists_eq_widened (hlegal : form.Legal) (hopcode : form.opcode = 0xc4) :
    ∃ opcode operands, form = widened opcode operands := by
  cases form with
  | widened opcode operands => exact ⟨opcode, operands, rfl⟩
  | plain opcode operands =>
      obtain ⟨-, -, -, hwide, -, -⟩ := operandSize?_eq_some_iff.1 hlegal
      exact absurd hopcode hwide
  | invoke kind index extra => cases kind <;> exact absurd hopcode (of_decide_eq_true rfl)
  | table | lookup => exact absurd hopcode (of_decide_eq_true rfl)

theorem exists_eq_table (hlegal : form.Legal) (hopcode : form.opcode = 0xaa) :
    ∃ filler fallback low high targets, form = table filler fallback low high targets := by
  cases form with
  | table filler fallback low high targets => exact ⟨filler, fallback, low, high, targets, rfl⟩
  | plain opcode operands =>
      obtain ⟨-, htable, -, -, -, -⟩ := operandSize?_eq_some_iff.1 hlegal
      exact absurd hopcode htable
  | invoke kind index extra => cases kind <;> exact absurd hopcode (of_decide_eq_true rfl)
  | widened | lookup => exact absurd hopcode (of_decide_eq_true rfl)

theorem not_stray_encode {more : Bytes} (hlegal : form.Legal) :
    ¬ Stray offset (form.encode offset ++ more) := by
  have hopcode : (form.encode offset ++ more)[0]? = some form.opcode := rfl
  intro hstray
  cases hstray with
  | undefined hfirst hbeyond =>
      rw [hopcode, Option.some.injEq] at hfirst
      subst hfirst
      exact UInt8.not_le.2 hbeyond (opcode_le hlegal)
  | widened hfirst hnext hlocal hincrement =>
      rw [hopcode, Option.some.injEq] at hfirst
      obtain ⟨opcode, operands, rfl⟩ := exists_eq_widened hlegal hfirst
      obtain rfl : opcode = _ := Option.some.inj hnext
      rcases hlegal with ⟨hmember, -⟩ | ⟨hwidened, -⟩
      · exact hlocal hmember
      · exact hincrement hwidened
  | emptyTable hfirst hlow hhigh hempty =>
      rw [hopcode, Option.some.injEq] at hfirst
      obtain ⟨filler, fallback, low, high, targets, rfl⟩ := exists_eq_table hlegal hfirst
      rw [word?_low, Option.some.injEq] at hlow
      rw [word?_high, Option.some.injEq] at hhigh
      rw [← hlow, ← hhigh, signed32_bigEndian_signedBytes, signed32_bigEndian_signedBytes] at hempty
      have hordered : low.toInt ≤ high.toInt := hlegal.1
      omega

end Form

/-- The boundaries of an assembled program are the offsets of its forms and its
end. -/
theorem exists_assemble_drop {program : List Form} {offset : Nat}
    (hlegal : ∀ form ∈ program, form.Legal) (h : Boundary (assemble 0 program) offset) :
    ∃ rest, (∀ form ∈ rest, Form.Legal form) ∧
      (assemble 0 program).drop offset = assemble offset rest := by
  induction h with
  | start => exact ⟨program, hlegal, rfl⟩
  | @next offset length _ hlength ih =>
      obtain ⟨rest, hrest, hdrop⟩ := ih
      rw [instructionLength, hdrop] at hlength
      cases rest with
      | nil => cases hlength
      | cons form rest =>
          -- the decoder takes all of the form, so the next boundary is right behind it
          have hsize : length = (form.encode offset).length :=
            Form.length_of_lengthAt_encode (hrest form List.mem_cons_self) hlength
          refine ⟨rest, fun later hlater => hrest later (List.mem_cons_of_mem _ hlater), ?_⟩
          rw [← List.drop_drop, hdrop, hsize, assemble, List.drop_left]

theorem LegalCode.not_stray {pool : ConstantPool} {code : Bytes} {offset : Nat}
    (hlegal : LegalCode pool code) (hboundary : Boundary code offset) :
    ¬ Stray offset (code.drop offset) := by
  obtain ⟨program, hprogram, rfl⟩ := hlegal
  obtain ⟨rest, hrest, hdrop⟩ :=
    exists_assemble_drop (fun form hform => (hprogram form hform).1) hboundary
  rw [hdrop]
  cases rest with
  | nil => exact not_stray_nil offset
  | cons form rest => exact Form.not_stray_encode (hrest form List.mem_cons_self)

/-! ## Accepted instructions are legal or strays -/

variable {pool : ConstantPool} {offset : Nat}

/-- The bytes in front of aligned operands can have any value. -/
theorem exists_alignment {bytes : Bytes} {count : Nat} (h : bytes.length = padding offset + count) :
    ∃ filler rest, bytes = Form.alignment filler offset ++ rest ∧ rest.length = count := by
  obtain ⟨front, rest, rfl, hfront, hrest⟩ := exists_append_of_length h
  refine ⟨fun position => front.getD position 0, rest, ?_, hrest⟩
  congr 1
  refine List.ext_getElem (by rw [Form.length_alignment, hfront]) fun position hposition _ => ?_
  simp only [Form.alignment, List.getElem_take, List.getElem_ofFn]
  rw [List.getD_eq_getElem?_getD, List.getElem?_eq_getElem hposition, Option.getD_some]

/-- All operands of the length of a jump table are those of a jump table. -/
theorem exists_table {operands : Bytes} {count : Nat}
    (h : operands.length = padding offset + 12 + 4 * count) :
    ∃ filler fallback low high targets, targets.length = count ∧
      operands = (Form.table filler fallback low high targets).operands offset := by
  obtain ⟨filler, words, rfl, hwords⟩ := exists_alignment
    (show operands.length = padding offset + (4 + (4 + (4 + 4 * count))) by omega)
  obtain ⟨fallback, bounds, rfl, hbounds⟩ := exists_signedBytes_append hwords
  obtain ⟨low, behindLow, rfl, hbehindLow⟩ := exists_signedBytes_append hbounds
  obtain ⟨high, behindHigh, rfl, hbehindHigh⟩ := exists_signedBytes_append hbehindLow
  obtain ⟨targets, htargets, rfl⟩ :=
    exists_flatMap_of_length (fun _ => exists_signedBytes) hbehindHigh
  exact ⟨filler, fallback, low, high, targets, htargets, rfl⟩

/-- All operands of the length of a list of keys are those of such a list. -/
theorem exists_lookup {operands : Bytes} {count : Nat}
    (h : operands.length = padding offset + 8 + 8 * count) :
    ∃ filler fallback size pairs, pairs.length = count ∧
      operands = (Form.lookup filler fallback size pairs).operands offset := by
  have hpair (part : Bytes) (hpart : part.length = 4 + 4) :
      ∃ pair : Int32 × Int32, signedBytes pair.1 ++ signedBytes pair.2 = part := by
    obtain ⟨key, rest, rfl, hrest⟩ := exists_signedBytes_append hpart
    obtain ⟨target, rfl⟩ := exists_signedBytes hrest
    exact ⟨(key, target), rfl⟩
  obtain ⟨filler, words, rfl, hwords⟩ := exists_alignment
    (show operands.length = padding offset + (4 + (4 + 8 * count)) by omega)
  obtain ⟨fallback, sized, rfl, hsized⟩ := exists_signedBytes_append hwords
  obtain ⟨size, behind, rfl, hbehind⟩ := exists_signedBytes_append hsized
  obtain ⟨pairs, hpairs, rfl⟩ := exists_flatMap_of_length hpair hbehind
  exact ⟨filler, fallback, size, pairs, hpairs, rfl⟩

/-- The bytes are one legal instruction at `offset`. -/
def LegalAt (pool : ConstantPool) (offset : Nat) (bytes : Bytes) : Prop :=
  ∃ form : Form, (form.Legal ∧ form.Resolves pool) ∧ bytes = form.encode offset

variable {operands more : Bytes}

theorem legalAt_table
    (hclaimed : claimedLength offset tableSwitch (tableSwitch :: (operands ++ more)) =
      .ok (operands.length + 1))
    (hstray : ¬ Stray offset (tableSwitch :: (operands ++ more))) :
    LegalAt pool offset (tableSwitch :: operands) := by
  obtain ⟨lowWord, highWord, count, hlow, hhigh, hcount, -, hlength⟩ :=
    claimedLength_tableSwitch_eq_ok_iff.1 hclaimed
  obtain ⟨filler, fallback, low, high, targets, rfl, rfl⟩ := exists_table
    (show operands.length = padding offset + 12 + 4 * count by omega)
  -- the words that the decoder reads are the bounds of this table
  have hfoundLow := hlow.symm.trans (Form.word?_low filler fallback more low high targets)
  have hfoundHigh := hhigh.symm.trans (Form.word?_high filler fallback more low high targets)
  rw [Option.some.injEq] at hfoundLow hfoundHigh
  have hordered : signed32 highWord ≠ signed32 lowWord - 1 := fun hempty =>
    hstray (Stray.emptyTable rfl hlow hhigh hempty)
  rw [hfoundLow, hfoundHigh, signed32_bigEndian_signedBytes, signed32_bigEndian_signedBytes]
    at hcount hordered
  have hlow_le : low.toInt ≤ high.toInt := by omega
  exact ⟨.table filler fallback low high targets,
    ⟨⟨hlow_le, hcount⟩, Form.resolves_of_reference?_eq_none rfl⟩, rfl⟩

theorem legalAt_lookup
    (hclaimed : claimedLength offset lookupSwitch (lookupSwitch :: (operands ++ more)) =
      .ok (operands.length + 1)) :
    LegalAt pool offset (lookupSwitch :: operands) := by
  obtain ⟨word, hword, hnonneg, hlength⟩ := claimedLength_lookupSwitch_eq_ok_iff.1 hclaimed
  obtain ⟨filler, fallback, count, pairs, hpairs, rfl⟩ := exists_lookup
    (show operands.length = padding offset + 8 + 8 * word by omega)
  have hfound := hword.symm.trans (Form.word?_count filler fallback more count pairs)
  rw [Option.some.injEq] at hfound
  -- a count that is not negative is the word itself
  have hsigned : signed32 word = word := by
    unfold signed32 at hnonneg ⊢
    have hbound := bigEndian_signedBytes_lt count
    split <;> omega
  have hcount : (pairs.length : Int) = count.toInt := by
    rw [hpairs, ← hsigned, hfound, signed32_bigEndian_signedBytes]
  exact ⟨.lookup filler fallback count pairs,
    ⟨hcount, Form.resolves_of_reference?_eq_none rfl⟩, rfl⟩

theorem legalAt_wide
    (hclaimed : claimedLength offset wide (wide :: (operands ++ more)) =
      .ok (operands.length + 1))
    (hstray : ¬ Stray offset (wide :: (operands ++ more))) :
    LegalAt pool offset (wide :: operands) := by
  obtain ⟨opcode, hopcode, hlength⟩ := claimedLength_wide_eq_ok_iff.1 hclaimed
  cases operands with
  | nil => split at hlength <;> cases hlength
  | cons first operands =>
      obtain rfl : first = opcode := Option.some.inj hopcode
      refine ⟨.widened first operands, ⟨?_, Form.resolves_of_reference?_eq_none rfl⟩, rfl⟩
      rw [List.length_cons] at hlength
      by_cases hincrement : first = increment
      · rw [if_pos hincrement] at hlength
        exact .inr ⟨hincrement, by omega⟩
      · rw [if_neg hincrement] at hlength
        refine .inl ⟨?_, by omega⟩
        -- any other opcode that is not widened in the instruction set is a stray
        by_contra hlocal
        exact hstray (Stray.widened rfl rfl hlocal hincrement)

theorem legalAt_invoke {kind : CallKind} {index : Nat} {method : MethodReference}
    (hlength : operands.length + 1 = plainLength kind.opcode)
    (hindex : word? (kind.opcode :: (operands ++ more)) 1 2 = some index)
    (hrefers : pool.Refers index method) :
    LegalAt pool offset (kind.opcode :: operands) := by
  have hoperands : operands.length = 2 + if kind = .interface then 2 else 0 := by
    have hplain : plainLength kind.opcode = if kind = .interface then 5 else 3 := by
      cases kind <;> rfl
    rw [hplain] at hlength
    split at hlength <;> simp_all
  obtain ⟨part, extra, rfl, hpart, hextra⟩ := exists_append_of_length hoperands
  have hfound : word? (kind.opcode :: ((part ++ extra) ++ more)) 1 2 = some (bigEndian part) := by
    simpa using word?_append 1 2 (extra ++ more) (show [kind.opcode].length = 1 from rfl) hpart
  rw [hindex, Option.some.injEq] at hfound
  -- two bytes fit into the index
  have hnumber : (UInt16.ofNat index).toNat = index := by
    have hbound : bigEndian part < 2 ^ 16 := by simpa [hpart] using bigEndian_lt part
    exact UInt16.toNat_ofNat_of_lt' (hfound ▸ hbound)
  refine ⟨.invoke kind (UInt16.ofNat index) extra, ⟨hextra, ?_⟩, ?_⟩
  · intro position hposition
    obtain rfl : (UInt16.ofNat index).toNat = position := Option.some.inj hposition
    exact ⟨method, hnumber.symm ▸ hrefers⟩
  · show kind.opcode :: (part ++ extra) =
      kind.opcode :: (bytesOf 2 (UInt16.ofNat index).toNat ++ extra)
    rw [hnumber, hfound, bytesOf_bigEndian hpart]

/-- An instruction that the decoder takes is legal if it is not a stray. -/
theorem legalAt_of_lengthAt {opcode : UInt8} {call : Option CallSite}
    (hlength : lengthAt offset (opcode :: (operands ++ more)) = .ok (operands.length + 1))
    (hcalls : Calls pool offset opcode (opcode :: (operands ++ more)) call)
    (hstray : ¬ Stray offset (opcode :: (operands ++ more))) :
    LegalAt pool offset (opcode :: operands) := by
  have hclaimed := (lengthAt_cons_eq_ok_iff.1 hlength).1
  by_cases htable : opcode = tableSwitch
  · subst htable
    exact legalAt_table hclaimed hstray
  by_cases hlookup : opcode = lookupSwitch
  · subst hlookup
    exact legalAt_lookup hclaimed
  by_cases hwide : opcode = wide
  · subst hwide
    exact legalAt_wide hclaimed hstray
  rw [claimedLength_plain htable hlookup hwide, Except.ok.injEq] at hclaimed
  unfold Calls at hcalls
  split at hcalls
  · next hkind =>
    have hdefined : opcode ≤ 0xc9 := UInt8.not_lt.1 fun hbeyond =>
      hstray (Stray.undefined rfl hbeyond)
    refine ⟨.plain opcode operands, ⟨?_, Form.resolves_of_reference?_eq_none rfl⟩, rfl⟩
    exact operandSize?_eq_some_iff.2 ⟨hdefined, htable, hlookup, hwide, hkind, hclaimed⟩
  · next kind hkind =>
    obtain ⟨index, method, hindex, hrefers, -⟩ := hcalls
    obtain rfl := CallKind.opcode_of_ofOpcode? hkind
    exact legalAt_invoke hclaimed.symm hindex hrefers

/-- The run of the decoder over a body whose boundaries hold no strays gives the
forms that the body is assembled from.  The induction is on the walk: the bytes
from a boundary on are assembled from the forms at the boundaries behind it. -/
theorem Walk.exists_assemble {code rest : Bytes} {instructions : List Instruction}
    (h : Walk pool offset rest instructions) (hrest : rest = code.drop offset)
    (hboundary : Boundary code offset)
    (hstray : ∀ later, Boundary code later → ¬ Stray later (code.drop later)) :
    ∃ program, (∀ form ∈ program, Form.Legal form ∧ form.Resolves pool) ∧
      assemble offset program = rest := by
  induction h with
  | nil offset => exact ⟨[], by simp, rfl⟩
  | @cons offset length opcode tail instruction _ hlength hinstruction _ ih =>
      obtain ⟨hpos, hfits⟩ := lengthAt_bounds hlength
      obtain ⟨operands, more, rfl, hoperands, -⟩ := exists_append_of_length
        (show tail.length = (length - 1) + (tail.length - (length - 1)) by
          rw [List.length_cons] at hfits
          omega)
      obtain rfl : length = operands.length + 1 := by omega
      obtain ⟨-, -, hcalls⟩ := decodeInstruction_eq_ok_iff.1 hinstruction
      have hhere : ¬ Stray offset (opcode :: (operands ++ more)) :=
        hrest ▸ hstray offset hboundary
      obtain ⟨form, hform, hencode⟩ := legalAt_of_lengthAt hlength hcalls hhere
      have hnext : Boundary code (offset + (operands.length + 1)) :=
        hboundary.next (by rw [instructionLength, ← hrest, hlength])
      have hdrop : (opcode :: (operands ++ more)).drop (operands.length + 1) = more := by
        rw [List.drop_succ_cons, List.drop_left]
      rw [hdrop] at ih
      obtain ⟨program, hprogram, hassembled⟩ :=
        ih (by rw [← List.drop_drop, ← hrest, hdrop]) hnext
      refine ⟨form :: program, ?_, ?_⟩
      · intro later hlater
        rcases List.mem_cons.1 hlater with rfl | hlater
        · exact hform
        · exact hprogram later hlater
      · rw [assemble, ← hencode, List.length_cons, hassembled, List.cons_append]

/-- An accepted body without strays is legal. -/
theorem legalCode_of_decode {code : Bytes} {instructions : List Instruction}
    (hdecode : decode pool code = .ok instructions)
    (hstray : ∀ offset, Boundary code offset → ¬ Stray offset (code.drop offset)) :
    LegalCode pool code :=
  (decodeFrom_eq_ok_iff.1 hdecode).exists_assemble rfl Boundary.start hstray

end Bytecode

/-! ## Class files with a rejected body -/

open Bytecode ClassFile

/-- Lifting a class file comes to decoding a method body: the class and the method
have names, and the methods before it are lifted. -/
inductive ComesToDecode (bytes : Bytes) (pool : ConstantPool) (code : Bytes)
    (className method descriptor : String) : Prop
  | intro {file : Outline} {member : Member} {before after : List Member} {lifted : List Method}
      (hparse : ClassFile.parse bytes = .ok file) (hpool : file.pool = pool)
      (hclass : pool.className file.thisClass = .ok className)
      (hmethods : file.methods = before ++ member :: after)
      (hbefore : before.mapM (liftMethod pool className) = .ok lifted)
      (hname : pool.utf8 member.name = .ok method)
      (hdescriptor : pool.utf8 member.descriptor = .ok descriptor)
      (hcode : member.code? = some code)

/-- The error of a method body becomes the error of its class, which names the
class and the method. -/
theorem ComesToDecode.liftClass_eq_error {bytes code : Bytes} {pool : ConstantPool}
    {className method descriptor : String} {cause : DecodeError}
    (h : ComesToDecode bytes pool code className method descriptor)
    (hdecode : decode pool code = .error cause) (artifact : Int) :
    liftClass bytes artifact = .error (.decode className method descriptor cause) := by
  obtain ⟨hparse, rfl, hclass, hmethods, hbefore, hname, hdescriptor, hcode⟩ := h
  rename_i file member before after lifted
  have hmember : liftMethod file.pool className member =
      .error (.decode className method descriptor cause) := by
    simp [liftMethod, hname, hdescriptor, hcode, hdecode]
  have hall : file.methods.mapM (liftMethod file.pool className) =
      .error (.decode className method descriptor cause) :=
    hmethods ▸ mapM_append_cons_eq_error hbefore hmember
  simp [liftClass, hparse, hclass, hall]

/-- What is accepted, exactly: among the bodies that the decoder accepts, the legal
ones are those without a stray at a boundary.  Every other body is rejected, and the
class file in which it comes to be decoded is rejected with it. -/
theorem decode_accepts_iff (pool : ConstantPool) (code : Bytes) :
    (∀ instructions, decode pool code = .ok instructions →
      (LegalCode pool code ↔
        ∀ offset, Boundary code offset → ¬ Stray offset (code.drop offset))) ∧
    ∀ cause, decode pool code = .error cause →
      ∀ bytes artifact className method descriptor,
        ComesToDecode bytes pool code className method descriptor →
        liftClass bytes artifact = .error (.decode className method descriptor cause) := by
  refine ⟨fun instructions hdecode => ⟨fun hlegal offset => hlegal.not_stray, ?_⟩, ?_⟩
  · exact legalCode_of_decode hdecode
  · intro cause hdecode bytes artifact className method descriptor hcomes
    exact hcomes.liftClass_eq_error hdecode artifact

/-- A class file whose only method has the body of a truncated invocation. -/
def truncatedClass : Bytes :=
  [0xca, 0xfe, 0xba, 0xbe, 0, 0, 0, 0x34, 0, 6, 7, 0, 2, 1, 0, 1, 0x41, 1, 0, 1, 0x6d,
    1, 0, 3, 0x28, 0x29, 0x56, 1, 0, 4, 0x43, 0x6f, 0x64, 0x65, 0, 1, 0, 1, 0, 1, 0, 0,
    0, 0, 0, 1, 0, 1, 0, 3, 0, 4, 0, 1, 0, 5, 0, 0, 0, 14, 0, 0, 0, 0, 0, 0, 0, 2, 0xb6, 0,
    0, 0, 0, 0, 0, 0]

/-- The truncated body is rejected with its class file; a body of one undefined opcode is
accepted, so it is not legal. -/
theorem liftClass_truncatedClass :
    liftClass truncatedClass 0 =
        .error (.decode "A" "m" "()V" (.length (.truncated 0xb6 0))) ∧
      ¬ LegalCode #[] [0xff] := by
  let pool : ConstantPool :=
    #[.empty, .classRef 2, .utf8 "A", .utf8 "m", .utf8 "()V", .utf8 "Code"]
  have hparse : ClassFile.parse truncatedClass =
      .ok ⟨pool, 1, [⟨1, 3, 4, [.code [0xb6, 0]]⟩]⟩ := by rfl
  have hrejected : decode pool [0xb6, 0] = .error (.length (.truncated 0xb6 0)) := by
    rw [decode, decodeFrom]
    rfl
  have hcomes : ComesToDecode truncatedClass pool [0xb6, 0] "A" "m" "()V" :=
    .intro hparse rfl rfl (List.nil_append _).symm rfl rfl rfl rfl
  have haccepted : decode #[] [0xff] = .ok [⟨0, 0xff, none⟩] :=
    decodeFrom_cons_eq_ok_iff.2 ⟨1, _, [], rfl, rfl, decodeFrom_nil #[] 1, rfl⟩
  constructor
  · exact (decode_accepts_iff pool [0xb6, 0]).2 _ hrejected _ _ _ _ _ hcomes
  · intro hlegal
    exact ((decode_accepts_iff #[] [0xff]).1 _ haccepted).1 hlegal 0 .start
      (.undefined rfl (by decide))

/-- Each kind of stray is accepted: an undefined opcode, a widened opcode without local
variable, and a jump table from one to zero. -/
theorem decode_accepts_strays :
    (decode #[] [0xff] = .ok [⟨0, 0xff, none⟩] ∧ ¬ LegalCode #[] [0xff]) ∧
    (decode #[] [0xc4, 0, 0, 0] = .ok [⟨0, 0xc4, none⟩] ∧ ¬ LegalCode #[] [0xc4, 0, 0, 0]) ∧
    (decode #[] [0xaa, 0, 0, 0, 0, 0, 0, 0, 0, 0, 0, 1, 0, 0, 0, 0] = .ok [⟨0, 0xaa, none⟩] ∧
      ¬ LegalCode #[] [0xaa, 0, 0, 0, 0, 0, 0, 0, 0, 0, 0, 1, 0, 0, 0, 0]) := by
  refine ⟨⟨?_, fun hlegal => ?_⟩, ⟨?_, fun hlegal => ?_⟩, ⟨?_, fun hlegal => ?_⟩⟩
  · exact decodeFrom_cons_eq_ok_iff.2 ⟨1, _, [], rfl, rfl, decodeFrom_nil _ 1, rfl⟩
  · exact hlegal.not_stray .start (.undefined rfl (by decide))
  · exact decodeFrom_cons_eq_ok_iff.2 ⟨4, _, [], rfl, rfl, decodeFrom_nil _ 4, rfl⟩
  · exact hlegal.not_stray .start (.widened rfl rfl (by decide) (by decide))
  · exact decodeFrom_cons_eq_ok_iff.2 ⟨16, _, [], rfl, rfl, decodeFrom_nil _ 16, rfl⟩
  · exact hlegal.not_stray .start (.emptyTable rfl rfl rfl (by decide))

end CallRedirect
