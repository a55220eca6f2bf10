import CallRedirect.Bytecode.Length
import CallRedirect.CallSite
import CallRedirect.ClassFile.Constant

/-!
# Decoding method bodies

A method body is a sequence of instructions without gaps.  The walk takes one
instruction off the front of the bytes and goes on behind it; it ends because
every instruction takes at least one byte.  The four invocations carry the
position of a method reference, which is resolved on the way.
-/

namespace CallRedirect.Bytecode

open ClassFile (ConstantPool ResolveError)

/-- What is wrong with a method body. -/
inductive DecodeError
  | length (cause : LengthError)
  | resolve (cause : ResolveError)
  deriving DecidableEq, Repr

/-- The text of a decoding error. -/
def DecodeError.message : DecodeError → String
  | length cause => cause.message
  | resolve cause => cause.message

/-- The call that the invocation at the front of `rest` makes. -/
def decodeCall (pool : ConstantPool) (kind : CallKind) (offset : Nat) (rest : Bytes) :
    Except DecodeError CallSite := do
  let index ← (readWord 16 offset rest 1).mapError .length
  let reference ← (pool.methodReference index).mapError .resolve
  return {
    owner := reference.owner
    name := reference.name
    descriptor := reference.descriptor
    kind := kind
    offset := UInt32.ofNat offset
  }

/-- The instruction with the given opcode at the front of `rest`. -/
def decodeInstruction (pool : ConstantPool) (offset : Nat) (opcode : UInt8) (rest : Bytes) :
    Except DecodeError Instruction := do
  let call ←
    match CallKind.ofOpcode? opcode with
    | some kind => (decodeCall pool kind offset rest).map some
    | none => .ok none
  return ⟨UInt32.ofNat offset, opcode, call⟩

/-- Decode `rest`, the bytes of a method body from `offset` on. -/
def decodeFrom (pool : ConstantPool) (offset : Nat) (rest : Bytes) :
    Except DecodeError (List Instruction) :=
  match rest with
  | [] => .ok []
  | opcode :: tail =>
    match _h : lengthAt offset (opcode :: tail) with
    | .error e => .error (.length e)
    | .ok length => do
      let instruction ← decodeInstruction pool offset opcode (opcode :: tail)
      let instructions ← decodeFrom pool (offset + length) ((opcode :: tail).drop length)
      return instruction :: instructions
  termination_by rest.length
  decreasing_by
    have := lengthAt_bounds ‹_›
    simp only [List.length_drop, List.length_cons] at this ⊢
    omega

/-- The instructions of a method body. -/
def decode (pool : ConstantPool) (code : Bytes) : Except DecodeError (List Instruction) :=
  decodeFrom pool 0 code

end CallRedirect.Bytecode
