import CallRedirect.ClassFile.Attribute

/-!
# Class files

A class file is a magic number, a version, the constant pool, the class's own
flags and names, its fields, its methods and its attributes, and nothing behind
them.  The version is not checked.
-/

namespace CallRedirect.ClassFile

/-- A field or a method; its name and its descriptor are positions in the pool. -/
structure Member where
  flags : Nat
  name : Nat
  descriptor : Nat
  attributes : List Attribute
  deriving DecidableEq, Repr

/-- The body of a method: the first one, if it has any. -/
def Member.code? (member : Member) : Option Bytes :=
  member.attributes.findSome? fun
    | .code bytes => some bytes
    | .other _ => none

/-- What a class file says, as far as it matters here. -/
structure Outline where
  pool : ConstantPool
  thisClass : Nat
  methods : List Member

/-- The number that every class file starts with. -/
def magic : Nat := 0xcafebabe

/-- Read a field or a method. -/
def member (pool : ConstantPool) (depth : Nat) : Parse Member := do
  let flags ← Parse.number 2
  let name ← Parse.number 2
  let descriptor ← Parse.number 2
  return ⟨flags, name, descriptor, ← attributes pool depth⟩

/-- Read a table of fields or methods. -/
def members (pool : ConstantPool) (depth : Nat) : Parse (List Member) := do
  let count ← Parse.number 2
  Parse.repeated count (member pool depth)

/-- Fail unless all bytes were read. -/
def finish : Parse Unit := do
  let cursor ← get
  if cursor.rest.isEmpty then return ()
  else throw (.trailingBytes cursor.size cursor.position)

/-- Read a class file whose attributes nest at most `depth` levels deep. -/
def classFile (depth : Nat) : Parse Outline := do
  if (← Parse.number 4) ≠ magic then throw .notClassFile
  Parse.skip [2, 2]
  let pool ← constantPool
  Parse.skip [2]
  let thisClass ← Parse.number 2
  Parse.skip [2]
  Parse.skipTable 2 (Parse.skip [2])
  let _ ← members pool depth
  let methods ← members pool depth
  let _ ← attributes pool depth
  finish
  return ⟨pool, thisClass, methods⟩

/-- Read a byte string as a class file. -/
def parse (bytes : Bytes) : Except FormatError Outline :=
  (Parse.run (classFile (bytes.length + 1)) bytes).map (·.1)

end CallRedirect.ClassFile
