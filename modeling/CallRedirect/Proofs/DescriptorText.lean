import CallRedirect.Descriptor
import CallRedirect.Proofs.Outcome
import CallRedirect.Rule

/-!
# Descriptors as texts

A type can be written back as a text, and reading takes exactly this text off the
front of anything that follows (`TypeDescriptor.read_text_append`).  So a type can
be put in front of the parameters of a method without changing how the rest of the
descriptor is read.

* `ReceiverType` says which type a receiver has that is called through an owner: an
  owner is the name of a class or the descriptor of an array type.
* `MethodDescriptor.parse_staticDescriptor`: the descriptor of a static method that
  takes over a call has the parameters of the call, behind the receiver if there is
  one, and its return type.
-/

namespace CallRedirect

/-! ## Types -/

namespace BaseType

@[simp] theorem ofLetter?_letter (type : BaseType) : ofLetter? type.letter = some type := by
  cases type <;> rfl

theorem letter_ne (type : BaseType) :
    type.letter ≠ 'L' ∧ type.letter ≠ '[' ∧ type.letter ≠ ')' := by
  cases type <;> decide

end BaseType

namespace ElementType

/-- An element type as it is written. -/
def text : ElementType → List Char
  | base type => [type.letter]
  | object name => 'L' :: (name ++ [';'])

/-- A class name ends at the first semicolon, so it must not have one itself. -/
def Writable : ElementType → Prop
  | base _ => True
  | object name => ';' ∉ name

theorem exists_text_eq_cons (type : ElementType) :
    ∃ first others, type.text = first :: others ∧ first ≠ '[' ∧ first ≠ ')' := by
  cases type with
  | base type => exact ⟨type.letter, [], rfl, type.letter_ne.2⟩
  | object name => exact ⟨'L', name ++ [';'], rfl, by decide, by decide⟩

theorem read_text_append {type : ElementType} (h : type.Writable) (rest : List Char) :
    read (type.text ++ rest) = .ok (type, rest) := by
  cases type with
  | base type =>
      show read (type.letter :: rest) = .ok (base type, rest)
      rw [read, BaseType.ofLetter?_letter]
      exact fun hletter => absurd hletter type.letter_ne.1
  | object name =>
      have hname : ∀ letter ∈ name, decide (letter ≠ ';') = true :=
        fun letter hletter => decide_eq_true fun hsame => h (hsame ▸ hletter)
      have htext : (object name).text ++ rest = 'L' :: (name ++ ';' :: rest) := by
        rw [text, List.cons_append, List.append_assoc, List.singleton_append]
      rw [htext, read, List.dropWhile_append_of_pos hname, List.takeWhile_append_of_pos hname]
      simp

end ElementType

namespace TypeDescriptor

/-- A type as it is written. -/
def text (type : TypeDescriptor) : List Char :=
  List.replicate type.dimensions '[' ++ type.element.text

/-- Types that are read as they are written. -/
structure Writable (type : TypeDescriptor) : Prop where
  dimensions : type.dimensions ≤ maxDimensions
  element : type.element.Writable

theorem head?_text_append (type : TypeDescriptor) (rest : List Char) :
    (type.text ++ rest).head? ≠ some ')' := by
  obtain ⟨first, others, htext, -, hfirst⟩ := type.element.exists_text_eq_cons
  rw [text, htext]
  cases type.dimensions with
  | zero => simpa using hfirst
  | succ count => simp [List.replicate_succ]

theorem read_text_append {type : TypeDescriptor} (h : type.Writable) (rest : List Char) :
    read (type.text ++ rest) = .ok (type, rest) := by
  obtain ⟨first, others, htext, hbracket, hclosing⟩ := type.element.exists_text_eq_cons
  have helement := ElementType.read_text_append h.element rest
  have hbrackets : ∀ letter ∈ List.replicate type.dimensions '[',
      decide (letter = '[') = true :=
    fun letter hletter => decide_eq_true (List.eq_of_mem_replicate hletter)
  have htake : ((type.text ++ rest).takeWhile (· = '[')).length = type.dimensions := by
    rw [text, List.append_assoc, List.takeWhile_append_of_pos hbrackets, htext]
    simp [hbracket]
  have hdrop : (type.text ++ rest).dropWhile (· = '[') = type.element.text ++ rest := by
    rw [text, List.append_assoc, List.dropWhile_append_of_pos hbrackets, htext]
    simp [hbracket]
  unfold read
  rw [htake, hdrop, if_neg (Nat.not_lt.2 h.dimensions)]
  split
  · next hzero =>
    have hplain : type.text ++ rest = type.element.text ++ rest := by
      rw [text, hzero, List.replicate_zero, List.nil_append]
    rw [hplain, helement, ← hzero]
    rfl
  · have hhead : (type.element.text ++ rest).head? ≠ some ')' := by
      rw [htext]
      simpa using hclosing
    rw [readElement, if_neg hhead, helement]
    rfl

end TypeDescriptor

/-! ## Methods -/

namespace MethodDescriptor

/-- The descriptor with one more parameter in front. -/
def withReceiver (receiver : TypeDescriptor) (descriptor : MethodDescriptor) : MethodDescriptor :=
  ⟨receiver :: descriptor.parameters, descriptor.returns⟩

theorem readParameters_text_append {type : TypeDescriptor} (h : type.Writable)
    (rest : List Char) :
    readParameters (type.text ++ rest) =
      (readParameters rest).map fun (types, after) => (type :: types, after) := by
  have hread := TypeDescriptor.read_text_append h rest
  have hhead := type.head?_text_append rest
  generalize type.text ++ rest = whole at hread hhead
  rw [readParameters]
  · split
    · next cause hfault => rw [hread] at hfault; cases hfault
    · next found after hfound =>
      rw [hread] at hfound
      cases hfound
      cases readParameters rest <;> rfl
  · rintro others rfl
    exact hhead rfl

theorem read_eq_ok_iff {text after : List Char} {descriptor : MethodDescriptor} :
    read ('(' :: text) = .ok (descriptor, after) ↔
      ∃ rest, readParameters text = .ok (descriptor.parameters, rest) ∧
        rest.head? ≠ some ')' ∧ TypeDescriptor.read rest = .ok (descriptor.returns, after) := by
  rw [read, bind_eq_ok_iff]
  constructor
  · rintro ⟨⟨parameters, rest⟩, hparameters, hreturns⟩
    dsimp only at hreturns
    split at hreturns
    · cases hreturns
    · next hclosing =>
      obtain ⟨⟨returns, left⟩, htype, hsame⟩ := bind_eq_ok_iff.1 hreturns
      cases hsame
      exact ⟨rest, hparameters, hclosing, htype⟩
  · rintro ⟨rest, hparameters, hclosing, htype⟩
    refine ⟨(descriptor.parameters, rest), hparameters, ?_⟩
    dsimp only
    rw [if_neg hclosing, htype]
    rfl

theorem read_withReceiver {receiver : TypeDescriptor} (h : receiver.Writable)
    {text after : List Char} {descriptor : MethodDescriptor}
    (hread : read ('(' :: text) = .ok (descriptor, after)) :
    read ('(' :: (receiver.text ++ text)) = .ok (descriptor.withReceiver receiver, after) := by
  obtain ⟨rest, hparameters, hclosing, hreturns⟩ := read_eq_ok_iff.1 hread
  refine read_eq_ok_iff.2 ⟨rest, ?_, hclosing, hreturns⟩
  rw [readParameters_text_append h, hparameters]
  rfl

theorem parse_eq_ok_iff {text : String} {descriptor : MethodDescriptor} :
    parse text = .ok descriptor ↔ ∃ after, read text.toList = .ok (descriptor, after) := by
  rw [parse, map_eq_ok_iff]
  constructor
  · rintro ⟨⟨found, after⟩, hread, rfl⟩
    exact ⟨after, hread⟩
  · rintro ⟨after, hread⟩
    exact ⟨(descriptor, after), hread, rfl⟩

/-- A method descriptor starts with an opening parenthesis. -/
theorem exists_toList_eq_cons {text : String} {descriptor : MethodDescriptor}
    (h : parse text = .ok descriptor) : ∃ rest, text.toList = '(' :: rest := by
  obtain ⟨after, hread⟩ := parse_eq_ok_iff.1 h
  unfold read at hread
  split at hread
  · next rest htext => exact ⟨rest, htext⟩
  · cases hread

end MethodDescriptor

/-- The accepted texts are those that start with a method descriptor. -/
theorem validateDescriptor_eq_ok_iff {text : String} :
    validateDescriptor text = .ok () ↔
      ∃ descriptor, MethodDescriptor.parse text = .ok descriptor := by
  unfold validateDescriptor
  cases MethodDescriptor.parse text with
  | ok descriptor => exact ⟨fun _ => ⟨descriptor, rfl⟩, fun _ => rfl⟩
  | error cause => simp

/-! ## Receivers -/

/-- A class name in internal form: no part of it between slashes is empty, and it has no
dot, no semicolon and no opening bracket. -/
structure InternalName (name : List Char) : Prop where
  parts : ∀ part ∈ name.splitOn '/', part ≠ []
  plain : ∀ letter ∈ name, letter ≠ '.' ∧ letter ≠ ';' ∧ letter ≠ '['

/-- The types that can stand in an array. -/
def ElementType.IsComponent : ElementType → Prop
  | base type => type ≠ .void
  | object name => InternalName name

/-- The types of arrays. -/
structure TypeDescriptor.IsArray (type : TypeDescriptor) : Prop where
  dimensions_pos : 0 < type.dimensions
  dimensions_le : type.dimensions ≤ maxDimensions
  component : type.element.IsComponent

/-- The type of a receiver that is called through an owner, which is the name of a class
or the descriptor of an array type. -/
inductive ReceiverType (owner : String) : TypeDescriptor → Prop
  | ofClass (h : InternalName owner.toList) : ReceiverType owner ⟨0, .object owner.toList⟩
  | ofArray {type : TypeDescriptor} (h : type.IsArray) (howner : owner.toList = type.text) :
      ReceiverType owner type

theorem InternalName.not_mem_semicolon {name : List Char} (h : InternalName name) :
    ';' ∉ name :=
  fun hletter => (h.plain ';' hletter).2.1 rfl

theorem ElementType.IsComponent.writable {type : ElementType} (h : type.IsComponent) :
    type.Writable := by
  cases type with
  | base type => trivial
  | object name => exact InternalName.not_mem_semicolon h

namespace ReceiverType

variable {owner : String} {receiver : TypeDescriptor}

theorem writable (h : ReceiverType owner receiver) : receiver.Writable := by
  cases h with
  | ofClass hname => exact ⟨Nat.zero_le _, hname.not_mem_semicolon⟩
  | ofArray harray => exact ⟨harray.dimensions_le, harray.component.writable⟩

theorem toList_receiverDescriptor (h : ReceiverType owner receiver) :
    (receiverDescriptor owner).toList = receiver.text := by
  cases h with
  | ofClass hname =>
      have hclass : owner.toList.head? ≠ some '[' := by
        intro hhead
        exact (hname.plain '[' (List.mem_of_head? hhead)).2.2 rfl
      rw [receiverDescriptor, if_neg hclass, String.toList_append, String.toList_append]
      rfl
  | ofArray harray howner =>
      obtain ⟨count, hcount⟩ := Nat.exists_eq_succ_of_ne_zero (Nat.ne_of_gt harray.dimensions_pos)
      have hbracket : owner.toList.head? = some '[' := by
        rw [howner, TypeDescriptor.text, hcount]
        rfl
      rw [receiverDescriptor, if_pos hbracket, howner]

end ReceiverType

/-! ## Taking over a call -/

/-- A static method that takes over a static call has the same descriptor. -/
theorem staticDescriptor_of_static {call : CallSite} (h : call.kind = .static) :
    staticDescriptor call = call.descriptor := by
  rw [staticDescriptor, h]

/-- A static method that takes over another call gets the receiver in front of the parameters. -/
theorem toList_staticDescriptor {call : CallSite} (h : call.kind ≠ .static) {rest : List Char}
    (hcall : call.descriptor.toList = '(' :: rest) :
    (staticDescriptor call).toList = '(' :: ((receiverDescriptor call.owner).toList ++ rest) := by
  have hdescriptor : staticDescriptor call =
      "(" ++ receiverDescriptor call.owner ++ String.ofList rest := by
    unfold staticDescriptor
    split
    · next hstatic => exact absurd hstatic h
    · simp only [hcall]
  rw [hdescriptor, String.toList_append, String.toList_append]
  simp

theorem MethodDescriptor.parse_staticDescriptor {call : CallSite} {original : MethodDescriptor}
    (hcall : parse call.descriptor = .ok original) (h : call.kind ≠ .static)
    {receiver : TypeDescriptor} (hreceiver : ReceiverType call.owner receiver) :
    parse (staticDescriptor call) = .ok (original.withReceiver receiver) := by
  obtain ⟨rest, htext⟩ := exists_toList_eq_cons hcall
  obtain ⟨after, hread⟩ := parse_eq_ok_iff.1 hcall
  rw [htext] at hread
  refine parse_eq_ok_iff.2 ⟨after, ?_⟩
  rw [toList_staticDescriptor h htext, hreceiver.toList_receiverDescriptor]
  exact read_withReceiver hreceiver.writable hread

end CallRedirect
