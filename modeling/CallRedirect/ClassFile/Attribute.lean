import CallRedirect.ClassFile.Pool

/-!
# Attributes

Fields, methods, the class itself, method bodies and record components carry
attributes.  Each has a name, a length and a content whose layout the name
decides; an unknown name is an error.  The layout alone says where an attribute
ends, so the length is not consulted, except that the contents kept as raw
bytes must be there in full before they are looked into.

Attributes nest, as do annotations.  Every level of nesting takes bytes, so the
number of bytes bounds the depth.
-/

namespace CallRedirect.ClassFile

/-- An attribute as far as it matters here: the body of a method, or another one. -/
inductive Attribute
  | code (bytes : Bytes)
  | other (name : String)
  deriving DecidableEq, Repr

/-- How the content of an attribute is laid out. -/
inductive AttributeLayout
  | code
  | fields (widths : List Nat)
  | table (countWidth : Nat) (widths : List Nat)
  | stackMap
  | annotations
  | rawAnnotations
  | parameterAnnotations
  | typeAnnotations
  | rawElement
  | bootstrapMethods
  | record
  deriving DecidableEq, Repr

/-- The layout that goes with an attribute's name. -/
def AttributeLayout.ofName? (name : String) : Option AttributeLayout :=
  layouts.lookup name
where
  layouts : List (String × AttributeLayout) := [
    ("Code", .code),
    ("ConstantValue", .fields [2]),
    ("LineNumberTable", .table 2 [2, 2]),
    ("LocalVariableTable", .table 2 [2, 2, 2, 2, 2]),
    ("LocalVariableTypeTable", .table 2 [2, 2, 2, 2, 2]),
    ("StackMapTable", .stackMap),
    ("Exceptions", .table 2 [2]),
    ("Synthetic", .fields []),
    ("Deprecated", .fields []),
    ("Signature", .fields [2]),
    ("SourceFile", .fields [2]),
    ("MethodParameters", .table 1 [2, 2]),
    ("RuntimeVisibleAnnotations", .rawAnnotations),
    ("RuntimeInvisibleAnnotations", .annotations),
    ("RuntimeVisibleParameterAnnotations", .parameterAnnotations),
    ("RuntimeVisibleTypeAnnotations", .typeAnnotations),
    ("AnnotationDefault", .rawElement),
    ("InnerClasses", .table 2 [2, 2, 2, 2]),
    ("EnclosingMethod", .fields [2, 2]),
    ("BootstrapMethods", .bootstrapMethods),
    ("NestHost", .fields [2]),
    ("NestMembers", .table 2 [2]),
    ("Record", .record),
    ("PermittedSubclasses", .table 2 [2])]

/-- Pass over the type of one local variable or stack place. -/
def skipVerificationType : Parse Unit := do
  let tag ← Parse.number 1
  if tag ≤ 6 then return ()
  else if tag ≤ 8 then Parse.skip [2]
  else throw (.unknownVerificationType tag)

/-- Pass over one frame of a stack map. -/
def skipFrame : Parse Unit := do
  let tag ← Parse.number 1
  if tag ≤ 63 then return ()
  else if tag ≤ 127 then skipVerificationType
  else if tag ≤ 246 then throw (.unknownFrame tag)
  else if tag = 247 then
    Parse.skip [2]
    skipVerificationType
  else if tag ≤ 251 then Parse.skip [2]
  else if tag ≤ 254 then
    Parse.skip [2]
    Parse.skipEach (tag - 251) skipVerificationType
  else
    Parse.skip [2]
    Parse.skipTable 2 skipVerificationType
    Parse.skipTable 2 skipVerificationType

/-- The tags of annotation values that are one constant. -/
def constantValueTags : List Nat :=
  ['B', 'C', 'D', 'F', 'I', 'J', 'S', 'Z', 's', 'c'].map Char.toNat

/-- Pass over the value of an annotation's member, at most `depth` levels deep. -/
def skipElementValue : Nat → Parse Unit
  | 0 => do
      let cursor ← get
      throw (.shortNumber cursor.position cursor.size)
  | depth + 1 => do
      let tag ← Parse.number 1
      if tag ∈ constantValueTags then Parse.skip [2]
      else if tag = 'e'.toNat then Parse.skip [2, 2]
      else if tag = '@'.toNat then
        Parse.skip [2]
        Parse.skipTable 2 (do Parse.skip [2]; skipElementValue depth)
      else if tag = '['.toNat then Parse.skipTable 2 (skipElementValue depth)
      else throw (.unknownElement tag)

/-- Pass over an annotation: its type and its named values. -/
def skipMark (depth : Nat) : Parse Unit := do
  Parse.skip [2]
  Parse.skipTable 2 (do Parse.skip [2]; skipElementValue depth)

/-- Pass over the place in the code or declaration that a type annotation is about. -/
def skipTarget (tag : Nat) : Parse Unit :=
  if tag ≤ 0x01 then Parse.skip [1]
  else if tag = 0x10 then Parse.skip [2]
  else if tag = 0x11 ∨ tag = 0x12 then Parse.skip [1, 1]
  else if 0x13 ≤ tag ∧ tag ≤ 0x15 then return ()
  else if tag = 0x16 then Parse.skip [1]
  else if tag = 0x17 then Parse.skip [2]
  else if tag = 0x40 ∨ tag = 0x41 then Parse.skipTable 2 (Parse.skip [2, 2, 2])
  else if 0x42 ≤ tag ∧ tag ≤ 0x46 then Parse.skip [2]
  else if 0x47 ≤ tag ∧ tag ≤ 0x4b then Parse.skip [2, 1]
  else throw (.unknownTarget tag)

/-- Pass over a type annotation. -/
def skipMarkedType (depth : Nat) : Parse Unit := do
  skipTarget (← Parse.number 1)
  Parse.skipTable 1 (Parse.skip [1, 1])
  skipMark depth

/-- Read the content of an attribute; `nested` reads the attributes inside it. -/
def attributeContent (nested : Parse (List Attribute)) (depth : Nat) (name : String)
    (length : Nat) : AttributeLayout → Parse Attribute
  | .code => do
      Parse.skip [2, 2]
      let bytes ← Parse.chunk (← Parse.number 4)
      Parse.skipTable 2 (Parse.skip [2, 2, 2, 2])
      let _ ← nested
      return .code bytes
  | .fields widths => do
      Parse.skip widths
      return .other name
  | .table countWidth widths => do
      Parse.skipTable countWidth (Parse.skip widths)
      return .other name
  | .stackMap => do
      Parse.skipTable 2 skipFrame
      return .other name
  | .annotations => do
      Parse.skipTable 2 (skipMark depth)
      return .other name
  | .rawAnnotations => do
      let _ ← Parse.require length
      Parse.skipTable 2 (skipMark depth)
      return .other name
  | .parameterAnnotations => do
      Parse.skipTable 1 (Parse.skipTable 2 (skipMark depth))
      return .other name
  | .typeAnnotations => do
      Parse.skipTable 2 (skipMarkedType depth)
      return .other name
  | .rawElement => do
      let _ ← Parse.require length
      skipElementValue depth
      return .other name
  | .bootstrapMethods => do
      Parse.skipTable 2 (do Parse.skip [2]; Parse.skipTable 2 (Parse.skip [2]))
      return .other name
  | .record => do
      Parse.skipTable 2 (do Parse.skip [2, 2]; let _ ← nested; return ())
      return .other name

/-- Read a table of attributes that nest at most `depth` levels deep. -/
def attributes (pool : ConstantPool) : Nat → Parse (List Attribute)
  | 0 => do
      let cursor ← get
      throw (.shortNumber cursor.position cursor.size)
  | depth + 1 => do
      let count ← Parse.number 2
      Parse.repeated count do
        let name ← textAt pool (← Parse.number 2)
        let length ← Parse.number 4
        match AttributeLayout.ofName? name with
        | none => throw (.unknownAttribute name)
        | some layout => attributeContent (attributes pool depth) depth name length layout

end CallRedirect.ClassFile
