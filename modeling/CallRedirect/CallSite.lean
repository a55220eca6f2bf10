/-!
# Call sites and instructions

An instruction of a method body keeps its offset, its opcode and, if it is one
of the four invocations, the call it makes.  The opcode, the kind of the call
and the two offsets are stored independently: nothing here forces them to
agree.  A rule matches by the opcode, and builds the replacement from the kind.
-/

namespace CallRedirect

/-- How a call selects its callee. -/
inductive CallKind
  | virtual
  | interface
  | special
  | static
  deriving DecidableEq, Repr, Inhabited

namespace CallKind

/-- The opcode that makes calls of a kind. -/
def opcode : CallKind → UInt8
  | virtual => 0xb6
  | special => 0xb7
  | static => 0xb8
  | interface => 0xb9

/-- The kind of call that an opcode makes, if it is an invocation of a named method. -/
def ofOpcode? (opcode : UInt8) : Option CallKind :=
  if opcode = 0xb6 then some virtual
  else if opcode = 0xb7 then some special
  else if opcode = 0xb8 then some static
  else if opcode = 0xb9 then some interface
  else none

/-- The word for a kind in rule files. -/
def name : CallKind → String
  | virtual => "virtual"
  | interface => "interface"
  | special => "special"
  | static => "static"

/-- The kind that a word names. -/
def ofName? (word : String) : Option CallKind :=
  [static, virtual, interface, special].find? (fun kind => kind.name = word)

@[simp] theorem ofOpcode?_opcode (kind : CallKind) : ofOpcode? kind.opcode = some kind := by
  cases kind <;> rfl

theorem opcode_of_ofOpcode? {opcode : UInt8} {kind : CallKind}
    (h : ofOpcode? opcode = some kind) : kind.opcode = opcode := by
  unfold ofOpcode? at h
  repeat' split at h
  all_goals simp_all [CallKind.opcode]
  all_goals subst h; rfl

end CallKind

/-- A call of the method `name` with `descriptor` on the type `owner`. -/
structure CallSite where
  owner : String
  name : String
  descriptor : String
  kind : CallKind
  offset : UInt32
  deriving DecidableEq, Repr, Inhabited

/-- One instruction of a method body; `call` is present for invocations only. -/
structure Instruction where
  offset : UInt32
  opcode : UInt8
  call : Option CallSite
  deriving DecidableEq, Repr, Inhabited

namespace Instruction

/-- The instruction at the same place that makes `call`: it takes the opcode of
the call's kind, and the call takes the instruction's offset. -/
def withCall (instruction : Instruction) (call : CallSite) : Instruction where
  offset := instruction.offset
  opcode := call.kind.opcode
  call := some { call with offset := instruction.offset }

@[simp] theorem offset_withCall (instruction : Instruction) (call : CallSite) :
    (instruction.withCall call).offset = instruction.offset := rfl

end Instruction

end CallRedirect
