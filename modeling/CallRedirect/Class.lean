import CallRedirect.CallSite

/-!
# Methods and classes

A class is a name, its methods in order, and the position of the artifact it
was read from.  The only change ever made to a class is to put another call in
the place of an instruction.
-/

namespace CallRedirect

/-- The access flag of methods that the compiler made up. -/
def syntheticFlag : UInt16 := 0x1000

/-- A method with its body; an abstract or native method has no code. -/
structure Method where
  name : String
  descriptor : String
  flags : UInt16
  code : List Instruction
  deriving DecidableEq, Repr, Inhabited

namespace Method

/-- Whether the compiler made the method up. -/
def isSynthetic (method : Method) : Bool :=
  method.flags &&& syntheticFlag ≠ 0

/-- Put `call` in the place of the instruction at `index`; past the end nothing changes. -/
def replaceCall (method : Method) (index : Nat) (call : CallSite) : Method :=
  { method with code := method.code.modify index (·.withCall call) }

end Method

/-- A class as read from one artifact. -/
structure Class where
  name : String
  methods : List Method
  artifact : Int
  deriving DecidableEq, Repr, Inhabited

namespace Class

/-- The position of the first method with a name and a descriptor. -/
def methodIndex? (cls : Class) (name descriptor : String) : Option Nat :=
  cls.methods.findIdx? (fun method => method.name = name ∧ method.descriptor = descriptor)

/-- Change the method at a position; past the end nothing changes. -/
def modifyMethod (cls : Class) (index : Nat) (change : Method → Method) : Class :=
  { cls with methods := cls.methods.modify index change }

end Class

end CallRedirect
