import CallRedirect.Bytes

/-!
# Texts and bytes

Texts are written as UTF-8.  Bytes are read as UTF-8, either strictly or whatever they
are: then a sequence that breaks off or cannot start is replaced as a whole by the
replacement character.
-/

namespace CallRedirect.Utf8

/-- The bytes of a text. -/
def bytes (text : String) : Bytes := text.toList.flatMap String.utf8EncodeChar

/-- The character for what cannot be read. -/
def replacement : Char := Char.ofNat 0xfffd

/-- The range of a continuation byte. -/
def anyContinuation : Nat × Nat := (0x80, 0xbf)

/-- The ranges of the bytes that follow a first byte, with the bits that the first
byte itself gives; nothing if no character starts with that byte. -/
def following? (first : Nat) : Option (Nat × List (Nat × Nat)) :=
  if first < 0x80 then some (first, [])
  else if first < 0xc2 then none
  else if first < 0xe0 then some (first - 0xc0, [anyContinuation])
  else if first = 0xe0 then some (0, [(0xa0, 0xbf), anyContinuation])
  else if first = 0xed then some (0xd, [(0x80, 0x9f), anyContinuation])
  else if first < 0xf0 then some (first - 0xe0, [anyContinuation, anyContinuation])
  else if first = 0xf0 then some (0, [(0x90, 0xbf), anyContinuation, anyContinuation])
  else if first < 0xf4 then
    some (first - 0xf0, [anyContinuation, anyContinuation, anyContinuation])
  else if first = 0xf4 then some (4, [(0x80, 0x8f), anyContinuation, anyContinuation])
  else none

/-- Read the bytes of a character that are left, the first of which has given
`value`.  A byte out of its range is left for the next character. -/
def readRest (value : Nat) : List (Nat × Nat) → Bytes → Char × Bytes
  | [], bytes => (Char.ofNat value, bytes)
  | _ :: _, [] => (replacement, [])
  | (low, high) :: ranges, byte :: bytes =>
      if low ≤ byte.toNat ∧ byte.toNat ≤ high then
        readRest (64 * value + byte.toNat % 64) ranges bytes
      else (replacement, byte :: bytes)

/-- Read one character behind its first byte. -/
def readCharacter (first : UInt8) (bytes : Bytes) : Char × Bytes :=
  match following? first.toNat with
  | some (value, ranges) => readRest value ranges bytes
  | none => (replacement, bytes)

theorem length_readRest_le (value : Nat) (ranges : List (Nat × Nat)) (bytes : Bytes) :
    (readRest value ranges bytes).2.length ≤ bytes.length := by
  induction ranges generalizing value bytes with
  | nil => simp [readRest]
  | cons range ranges ih =>
    cases bytes with
    | nil => simp [readRest]
    | cons byte bytes =>
      simp only [readRest]
      split
      · exact Nat.le_succ_of_le (ih _ bytes)
      · exact Nat.le_refl _

theorem length_readCharacter_le (first : UInt8) (bytes : Bytes) :
    (readCharacter first bytes).2.length ≤ bytes.length := by
  unfold readCharacter
  split
  · exact length_readRest_le _ _ _
  · exact Nat.le_refl _

/-- The characters of bytes. -/
def characters : Bytes → List Char
  | [] => []
  | first :: bytes =>
      let step := readCharacter first bytes
      step.1 :: characters step.2
  termination_by bytes => bytes.length
  decreasing_by exact Nat.lt_succ_of_le (length_readCharacter_le first bytes)

/-- The text of bytes. -/
def decodeLossy (bytes : Bytes) : String := String.ofList (characters bytes)

/-- The text of bytes that are UTF-8. -/
def decode? (bytes : Bytes) : Option String := String.fromUTF8? ⟨bytes.toArray⟩

end CallRedirect.Utf8
