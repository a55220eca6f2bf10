import CallRedirect.ClassFile.Cursor
import CallRedirect.Text.ModifiedUtf8

/-!
# Reading the constant pool

The pool starts with the number of its positions, which includes the empty one
in front.  A constant of eight bytes fills two of them, the second one with
nothing; at the last position there is no room for that, and it is left out.
-/

namespace CallRedirect.ClassFile

/-- Read the constant that a tag announces. -/
def constantOfTag (tag : Nat) : Parse Constant :=
  match tag with
  | 1 => do
      let bytes ← Parse.chunk (← Parse.number 2)
      match ModifiedUtf8.decode? bytes with
      | some text => return .utf8 text
      | none => throw .malformedText
  | 3 => return .integer (← Parse.number 4)
  | 4 => return .float (bigEndian (← Parse.chunk 4))
  | 5 => return .long (← Parse.number 8)
  | 6 => return .double (bigEndian (← Parse.chunk 8))
  | 7 => return .classRef (← Parse.number 2)
  | 8 => return .string (← Parse.number 2)
  | 9 => pair .fieldRef
  | 10 => pair .methodRef
  | 11 => pair .interfaceMethodRef
  | 12 => pair .nameAndType
  | 15 => do
      let kind ← Parse.number 1
      return .methodHandle kind (← Parse.number 2)
  | 16 => return .methodType (← Parse.number 2)
  | 17 => pair .dynamic
  | 18 => pair .invokeDynamic
  | 19 => return .module (← Parse.number 2)
  | 20 => return .package (← Parse.number 2)
  | other => throw (.unknownTag other)
where
  pair (build : Nat → Nat → Constant) : Parse Constant := do
    let first ← Parse.number 2
    return build first (← Parse.number 2)

/-- Read a constant with its tag. -/
def constant : Parse Constant := do
  constantOfTag (← Parse.number 1)

/-- Read constants until `positions` positions are filled. -/
def constants : Nat → Parse (List Constant)
  | 0 => return []
  | 1 => return [← constant]
  | positions + 2 => do
      let first ← constant
      if first.width = 2 then
        return first :: .empty :: (← constants positions)
      else
        return first :: (← constants (positions + 1))

/-- Read the constant pool. -/
def constantPool : Parse ConstantPool := do
  match ← Parse.number 2 with
  | 0 => return #[]
  | others + 1 => return (.empty :: (← constants others)).toArray

/-- The text that an attribute's name index leads to. -/
def textAt (pool : ConstantPool) (index : Nat) : Parse String :=
  match pool[index]? with
  | some (.utf8 value) => return value
  | some other => throw (.notText other)
  | none => throw (.missingConstant index)

end CallRedirect.ClassFile
