/-!
# Method descriptors

A method descriptor lists parameter types between parentheses and then gives
the return type.  Types are read from left to right:

* a primitive type, or `V`, is one letter;
* a class type is `L`, a name that may be empty, and `;`;
* an array type is one to 255 opening brackets and an element type.

`V` is accepted wherever a type may stand, and text behind the return type is
not looked at.  A closing parenthesis ends the parameters, so where a type has
to follow it is a fault of its own.
-/

namespace CallRedirect

/-- A type of one letter. -/
inductive BaseType
  | byte | char | double | float | int | long | short | boolean | void
  deriving DecidableEq, Repr, Inhabited

namespace BaseType

/-- The letter of a base type. -/
def letter : BaseType → Char
  | byte => 'B'
  | char => 'C'
  | double => 'D'
  | float => 'F'
  | int => 'I'
  | long => 'J'
  | short => 'S'
  | boolean => 'Z'
  | void => 'V'

/-- The base type that a letter stands for. -/
def ofLetter? (c : Char) : Option BaseType :=
  [byte, char, double, float, int, long, short, boolean, void].find? (fun base => base.letter = c)

end BaseType

/-- A type without array brackets. -/
inductive ElementType
  | base (type : BaseType)
  | object (name : List Char)
  deriving DecidableEq, Repr, Inhabited

/-- A type: `dimensions` brackets around an element type. -/
structure TypeDescriptor where
  dimensions : Nat
  element : ElementType
  deriving DecidableEq, Repr, Inhabited

/-- The parameter types and the return type of a method. -/
structure MethodDescriptor where
  parameters : List TypeDescriptor
  returns : TypeDescriptor
  deriving DecidableEq, Repr, Inhabited

/-- What is wrong with a method descriptor. -/
inductive DescriptorError
  | noOpeningParenthesis
  | unexpectedEnd
  | unrecognizedType
  | missingSemicolon
  | missingElementType
  | missingReturnType
  | tooManyDimensions
  deriving DecidableEq, Repr

namespace DescriptorError

/-- The text of a descriptor error. -/
def message : DescriptorError → String
  | noOpeningParenthesis => "InvalidFormat(\"Method descriptor must start with '('.\")"
  | unexpectedEnd => "UnexpectedEndOfInput"
  | unrecognizedType => "InvalidFormat(\"Unrecognized type descriptor.\")"
  | missingSemicolon => "InvalidFormat(\"Missing semicolon in class name descriptor.\")"
  | missingElementType => "InvalidFormat(\"Invalid descriptor.\")"
  | missingReturnType => "InvalidFormat(\"Missing return type.\")"
  | tooManyDimensions => "TooManyDimensions"

end DescriptorError

/-- The greatest number of array brackets. -/
def maxDimensions : Nat := 255

namespace ElementType

/-- Read an element type off the front of a text. -/
def read : List Char → Except DescriptorError (ElementType × List Char)
  | [] => .error .unexpectedEnd
  | 'L' :: rest =>
      match rest.dropWhile (· ≠ ';') with
      | [] => .error .missingSemicolon
      | _ :: after => .ok (.object (rest.takeWhile (· ≠ ';')), after)
  | c :: rest =>
      match BaseType.ofLetter? c with
      | some type => .ok (.base type, rest)
      | none => .error .unrecognizedType

/-- Reading an element type uses up at least one character. -/
theorem length_lt_of_read {text rest : List Char} {type : ElementType}
    (h : read text = .ok (type, rest)) : rest.length < text.length := by
  unfold read at h
  split at h
  · simp at h
  · next tail =>
    split at h
    · simp at h
    · next head after hdrop =>
      simp only [Except.ok.injEq, Prod.mk.injEq] at h
      obtain ⟨_, rfl⟩ := h
      have hle := (List.dropWhile_sublist (· ≠ ';') (l := tail)).length_le
      simp only [hdrop, List.length_cons] at hle ⊢
      omega
  · split at h
    · simp only [Except.ok.injEq, Prod.mk.injEq] at h
      obtain ⟨_, rfl⟩ := h
      simp
    · simp at h

end ElementType

namespace TypeDescriptor

/-- Read the element type that follows `dimensions` brackets. -/
def readElement (dimensions : Nat) (text : List Char) :
    Except DescriptorError (TypeDescriptor × List Char) :=
  if text.head? = some ')' then .error .missingElementType
  else do
    let (element, rest) ← ElementType.read text
    return (⟨dimensions, element⟩, rest)

/-- Read a type off the front of a text. -/
def read (text : List Char) : Except DescriptorError (TypeDescriptor × List Char) :=
  let dimensions := (text.takeWhile (· = '[')).length
  if maxDimensions < dimensions then .error .tooManyDimensions
  else if dimensions = 0 then do
    let (element, rest) ← ElementType.read text
    return (⟨0, element⟩, rest)
  else readElement dimensions (text.dropWhile (· = '['))

/-- Reading a type uses up at least one character. -/
theorem length_lt_of_read {text rest : List Char} {type : TypeDescriptor}
    (h : read text = .ok (type, rest)) : rest.length < text.length := by
  have key : ∀ {dims : Nat} {source : List Char},
      (do let (element, rest) ← ElementType.read source
          return (⟨dims, element⟩, rest) : Except DescriptorError (TypeDescriptor × List Char))
        = .ok (type, rest) → rest.length < source.length := by
    intro dims source hread
    cases hs : ElementType.read source with
    | error e => rw [hs] at hread; simp [bind, Except.bind] at hread
    | ok pair =>
      rw [hs] at hread
      simp only [bind, Except.bind, pure, Except.pure, Except.ok.injEq, Prod.mk.injEq] at hread
      obtain ⟨_, rfl⟩ := hread
      exact ElementType.length_lt_of_read hs
  unfold read at h
  simp only at h
  split at h
  · simp at h
  · split at h
    · exact key h
    · unfold readElement at h
      split at h
      · simp at h
      · have hle := (List.dropWhile_sublist (· = '[') (l := text)).length_le
        have := key h
        omega

end TypeDescriptor

namespace MethodDescriptor

/-- Read parameter types up to and with the closing parenthesis. -/
def readParameters (text : List Char) :
    Except DescriptorError (List TypeDescriptor × List Char) :=
  match text with
  | ')' :: rest => .ok ([], rest)
  | text =>
      match _h : TypeDescriptor.read text with
      | .error e => .error e
      | .ok (type, rest) => do
          let (types, after) ← readParameters rest
          return (type :: types, after)
  termination_by text.length
  decreasing_by exact TypeDescriptor.length_lt_of_read ‹_›

/-- Read a method descriptor; what follows the return type is left unread. -/
def read : List Char → Except DescriptorError (MethodDescriptor × List Char)
  | '(' :: text => do
      let (parameters, rest) ← readParameters text
      if rest.head? = some ')' then throw .missingReturnType
      let (returns, after) ← TypeDescriptor.read rest
      return (⟨parameters, returns⟩, after)
  | _ => .error .noOpeningParenthesis

/-- The method descriptor that a text starts with. -/
def parse (text : String) : Except DescriptorError MethodDescriptor :=
  (read text.toList).map (·.1)

end MethodDescriptor

/-- A text that is no method descriptor, with the fault found in it. -/
structure MalformedDescriptor where
  text : String
  cause : DescriptorError
  deriving DecidableEq, Repr

/-- The text of a malformed descriptor's error. -/
def MalformedDescriptor.message (e : MalformedDescriptor) : String :=
  "malformed method descriptor " ++ e.text ++ ": " ++ e.cause.message

/-- Accept the texts that start with a method descriptor. -/
def validateDescriptor (text : String) : Except MalformedDescriptor Unit :=
  match MethodDescriptor.parse text with
  | .ok _ => .ok ()
  | .error cause => .error ⟨text, cause⟩

end CallRedirect
