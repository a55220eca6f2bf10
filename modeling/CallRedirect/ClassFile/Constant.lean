import CallRedirect.Bytes
import CallRedirect.Decimal.Shortest

/-!
# The constant pool

A class file refers to names, types and members through a table of constants.
Positions count from one, and a constant of eight bytes takes two positions;
position zero and the second half of such a constant hold nothing.

A method reference is resolved in three steps: the reference names a class
constant and a name-and-type constant, and these name texts.
-/

namespace CallRedirect.ClassFile

/-- One entry of the constant pool. -/
inductive Constant
  | empty
  | utf8 (value : String)
  | integer (word : Nat)
  | float (word : Nat)
  | long (word : Nat)
  | double (word : Nat)
  | classRef (name : Nat)
  | string (text : Nat)
  | fieldRef (owner nameAndType : Nat)
  | methodRef (owner nameAndType : Nat)
  | interfaceMethodRef (owner nameAndType : Nat)
  | nameAndType (name descriptor : Nat)
  | methodHandle (kind reference : Nat)
  | methodType (descriptor : Nat)
  | dynamic (bootstrap nameAndType : Nat)
  | invokeDynamic (bootstrap nameAndType : Nat)
  | module (name : Nat)
  | package (name : Nat)
  deriving DecidableEq, Repr, Inhabited

/-- A signed word of `bits` bits in two's complement. -/
def signedWord (bits word : Nat) : Int :=
  if word < Nat.pow 2 (bits - 1) then word else (word : Int) - Nat.pow 2 bits

/-- Floating-point constants are positional down to `0.0001`; a positive exponent
has no sign, and of two equally near texts the greater is taken. -/
def floatLayout : Decimal.Layout where
  zeros := 3
  plus := false
  tie := .up

/-- The text of the floating-point number that a word of the format encodes;
`exponentBits` is the width of its exponent field. -/
def floatText (format : Decimal.BinaryFormat) (exponentBits word : Nat) : String :=
  let fractionBits := format.digits - 1
  let fraction := word % Nat.pow 2 fractionBits
  let biased := word / Nat.pow 2 fractionBits % Nat.pow 2 exponentBits
  let sign := if word / Nat.pow 2 (fractionBits + exponentBits) = 0 then "" else "-"
  if biased = Nat.pow 2 exponentBits - 1 then
    if fraction = 0 then sign ++ "inf" else "NaN"
  else
    let magnitude : Decimal.Magnitude :=
      if biased = 0 then ⟨fraction, format.minExponent⟩
      else ⟨Nat.pow 2 fractionBits + fraction, format.minExponent + (biased - 1 : Nat)⟩
    sign ++ floatLayout.magnitudeText format magnitude

namespace Constant

/-- A constant's name and fields as error messages show them. -/
def shape : Constant → String × List (String × String)
  | empty => ("Empty", [])
  | utf8 value => ("Utf8", [("value", value)])
  | integer word => ("Integer", [("value", toString (signedWord 32 word))])
  | float word => ("Float", [("value", floatText Decimal.binary32 8 word)])
  | long word => ("Long", [("value", toString (signedWord 64 word))])
  | double word => ("Double", [("value", floatText Decimal.binary64 11 word)])
  | classRef name => ("Class", [("name_index", toString name)])
  | string text => ("String", [("string_index", toString text)])
  | fieldRef owner signature => ("Fieldref", member owner signature)
  | methodRef owner signature => ("Methodref", member owner signature)
  | interfaceMethodRef owner signature => ("InterfaceMethodref", member owner signature)
  | nameAndType name descriptor =>
      ("NameAndType", [("name_index", toString name), ("descriptor_index", toString descriptor)])
  | methodHandle kind reference =>
      ("MethodHandle",
        [("reference_kind", toString kind), ("reference_index", toString reference)])
  | methodType descriptor => ("MethodType", [("descriptor_index", toString descriptor)])
  | dynamic bootstrap signature => ("Dynamic", computed bootstrap signature)
  | invokeDynamic bootstrap signature => ("InvokeDynamic", computed bootstrap signature)
  | module name => ("Module", [("name_index", toString name)])
  | package name => ("Package", [("name_index", toString name)])
where
  member (owner signature : Nat) : List (String × String) :=
    [("class_index", toString owner), ("name_and_type_index", toString signature)]
  computed (bootstrap signature : Nat) : List (String × String) :=
    [("bootstrap_method_attr_index", toString bootstrap),
      ("name_and_type_index", toString signature)]

/-- A constant as error messages show it. -/
def text (constant : Constant) : String :=
  match constant.shape with
  | (name, []) => name
  | (name, fields) =>
      let shown := fields.map (fun (field, value) => field ++ ": " ++ value)
      name ++ " \x7b " ++ ", ".intercalate shown ++ " \x7d"

/-- The number of pool positions that a constant takes. -/
def width : Constant → Nat
  | long _ => 2
  | double _ => 2
  | _ => 1

end Constant

/-- The constants of a class file by position. -/
abbrev ConstantPool := Array Constant

/-- A reference that does not lead where it should. -/
inductive ResolveError
  | notUtf8 (index : Nat)
  | notClass (index : Nat)
  | notMethodReference (index : Nat)
  | notNameAndType (index : Nat)
  deriving DecidableEq, Repr

/-- The text of a reference error. -/
def ResolveError.message : ResolveError → String
  | notUtf8 index => s!"constant {index} is not utf8"
  | notClass index => s!"constant {index} is not a class"
  | notMethodReference index => s!"constant {index} is not a method reference"
  | notNameAndType index => s!"constant {index} is not a name and type"

/-- A method reference with its three texts. -/
structure MethodReference where
  owner : String
  name : String
  descriptor : String
  deriving DecidableEq, Repr, Inhabited

namespace ConstantPool

/-- The text at a position. -/
def utf8 (pool : ConstantPool) (index : Nat) : Except ResolveError String :=
  match pool[index]? with
  | some (.utf8 value) => .ok value
  | _ => .error (.notUtf8 index)

/-- The name of the class at a position. -/
def className (pool : ConstantPool) (index : Nat) : Except ResolveError String :=
  match pool[index]? with
  | some (.classRef name) => pool.utf8 name
  | _ => .error (.notClass index)

/-- The positions of the class and of the name and type that a reference to a
method, of a class or of an interface, is made of. -/
def methodParts (pool : ConstantPool) (index : Nat) : Except ResolveError (Nat × Nat) :=
  match pool[index]? with
  | some (.methodRef owner nameAndType) => .ok (owner, nameAndType)
  | some (.interfaceMethodRef owner nameAndType) => .ok (owner, nameAndType)
  | _ => .error (.notMethodReference index)

/-- The positions of the two texts of a name and type. -/
def nameAndTypeParts (pool : ConstantPool) (index : Nat) : Except ResolveError (Nat × Nat) :=
  match pool[index]? with
  | some (.nameAndType name descriptor) => .ok (name, descriptor)
  | _ => .error (.notNameAndType index)

/-- The method that the reference at a position names: its class is looked up
first, then its name and type. -/
def methodReference (pool : ConstantPool) (index : Nat) :
    Except ResolveError MethodReference := do
  let (ownerIndex, nameAndTypeIndex) ← pool.methodParts index
  let owner ← pool.className ownerIndex
  let (nameIndex, descriptorIndex) ← pool.nameAndTypeParts nameAndTypeIndex
  let name ← pool.utf8 nameIndex
  let descriptor ← pool.utf8 descriptorIndex
  return ⟨owner, name, descriptor⟩

end ConstantPool

end CallRedirect.ClassFile
