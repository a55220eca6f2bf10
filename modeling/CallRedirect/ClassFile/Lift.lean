import CallRedirect.Bytecode.Decoder
import CallRedirect.Class
import CallRedirect.ClassFile.Outline
import CallRedirect.Event

/-!
# Lifting class files

A class file becomes a class: names are looked up in the constant pool, method
bodies are decoded, and of a method's flags those that have a meaning are kept.
-/

namespace CallRedirect

/-- Why a byte string is not lifted. -/
inductive LiftError
  | format (cause : ClassFile.FormatError)
  | resolve (cause : ClassFile.ResolveError)
  | decode (className method descriptor : String) (cause : Bytecode.DecodeError)
  deriving DecidableEq, Repr

/-- The texts of a lifting error, outermost first. -/
def LiftError.texts : LiftError → List String
  | format cause => [cause.message]
  | resolve cause => [cause.message]
  | decode className method descriptor cause =>
      ["failed to decode " ++ className ++ "." ++ method ++ descriptor, cause.message]

/-- The access flags that a method can have. -/
def methodFlags : UInt16 := 0x1dff

/-- Lift one method of the class `className`. -/
def liftMethod (pool : ClassFile.ConstantPool) (className : String)
    (member : ClassFile.Member) : Except LiftError Method := do
  let name ← (pool.utf8 member.name).mapError .resolve
  let descriptor ← (pool.utf8 member.descriptor).mapError .resolve
  let code ←
    match member.code? with
    | some bytes =>
        (Bytecode.decode pool bytes).mapError (.decode className name descriptor)
    | none => .ok []
  return ⟨name, descriptor, UInt16.ofNat member.flags &&& methodFlags, code⟩

/-- Lift the bytes of a class file that stands at `artifact` in the artifact table. -/
def liftClass (bytes : Bytes) (artifact : Int) : Except LiftError Class := do
  let file ← (ClassFile.parse bytes).mapError .format
  let name ← (file.pool.className file.thisClass).mapError .resolve
  let methods ← file.methods.mapM (liftMethod file.pool name)
  return ⟨name, methods, artifact⟩

/-- The event of having lifted a class. -/
def Class.liftedEvent (cls : Class) : Event :=
  .classLifted cls.name cls.methods.length

end CallRedirect
