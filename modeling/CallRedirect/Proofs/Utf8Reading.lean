import CallRedirect.Proofs.NameOrder
import CallRedirect.Text.Utf8

/-!
# Reading UTF-8 back

The bytes of a text are read as that text, also by the reader that replaces what it cannot read
(`Utf8.decodeLossy_bytes`), and by the strict one (`Utf8.decode?_bytes`).  What a first byte allows
behind it depends on the byte; the ranges are made so that a number is written in one way only,
and that none of the numbers left out of Unicode is read.
-/

namespace CallRedirect.Utf8

/-- A byte of six bits of a number, behind the first byte. -/
def continuation (value : Nat) : UInt8 := UInt8.ofNat (value % 64 + 128)

@[simp] theorem toNat_continuation (value : Nat) :
    (continuation value).toNat = value % 64 + 128 := by
  rw [continuation, UInt8.toNat_ofNat']
  omega

/-- A byte in its range adds six bits to what was read before it. -/
theorem readRest_cons {value low high bits : Nat} {ranges : List (Nat × Nat)} {bytes : Bytes}
    (hlow : low ≤ bits % 64 + 128) (hhigh : bits % 64 + 128 ≤ high) :
    readRest value ((low, high) :: ranges) (continuation bits :: bytes) =
      readRest (64 * value + bits % 64) ranges bytes := by
  rw [readRest, toNat_continuation, if_pos ⟨hlow, hhigh⟩]
  congr 2
  omega

theorem readRest_anyContinuation {value bits : Nat} {ranges : List (Nat × Nat)} {bytes : Bytes} :
    readRest value (anyContinuation :: ranges) (continuation bits :: bytes) =
      readRest (64 * value + bits % 64) ranges bytes :=
  readRest_cons (by omega) (by omega)

/-! ## First bytes -/

theorem following?_one {value : Nat} (h : value < 128) : following? value = some (value, []) := by
  rw [following?, if_pos h]

theorem following?_two {value : Nat} (hleast : 128 ≤ value) (h : value < 2048) :
    following? (192 + value / 64) = some (value / 64, [anyContinuation]) := by
  rw [following?, if_neg (by omega), if_neg (by omega), if_pos (by omega),
    Nat.add_sub_cancel_left]

/-- The first of three bytes allows the second one, unless the number is a surrogate. -/
theorem following?_three {value : Nat} (hleast : 2048 ≤ value) (h : value < 65536)
    (hvalid : value < 0xd800 ∨ 0xdfff < value) :
    ∃ low high, following? (224 + value / 64 / 64) =
        some (value / 64 / 64, [(low, high), anyContinuation]) ∧
      low ≤ value / 64 % 64 + 128 ∧ value / 64 % 64 + 128 ≤ high := by
  rw [following?, if_neg (by omega), if_neg (by omega), if_neg (by omega)]
  by_cases hfirst : value / 64 / 64 = 0
  · exact ⟨0xa0, 0xbf, by rw [hfirst]; rfl, by omega, by omega⟩
  · rw [if_neg (by omega)]
    by_cases hlast : value / 64 / 64 = 13
    · exact ⟨0x80, 0x9f, by rw [hlast]; rfl, by omega, by omega⟩
    · refine ⟨0x80, 0xbf, ?_, by omega, by omega⟩
      rw [if_neg (by omega), if_pos (by omega), Nat.add_sub_cancel_left]
      rfl

/-- The first of four bytes allows the second one. -/
theorem following?_four {value : Nat} (hleast : 65536 ≤ value) (h : value < 1114112) :
    ∃ low high, following? (240 + value / 64 / 64 / 64) =
        some (value / 64 / 64 / 64, [(low, high), anyContinuation, anyContinuation]) ∧
      low ≤ value / 64 / 64 % 64 + 128 ∧ value / 64 / 64 % 64 + 128 ≤ high := by
  rw [following?, if_neg (by omega), if_neg (by omega), if_neg (by omega), if_neg (by omega),
    if_neg (by omega), if_neg (by omega)]
  by_cases hfirst : value / 64 / 64 / 64 = 0
  · exact ⟨0x90, 0xbf, by rw [hfirst]; rfl, by omega, by omega⟩
  · rw [if_neg (by omega)]
    by_cases hlast : value / 64 / 64 / 64 = 4
    · exact ⟨0x80, 0x8f, by rw [hlast]; rfl, by omega, by omega⟩
    · refine ⟨0x80, 0xbf, ?_, by omega, by omega⟩
      rw [if_pos (by omega), Nat.add_sub_cancel_left]
      rfl

/-! ## Characters -/

theorem characters_cons_of_readCharacter {first : UInt8} {bytes rest : Bytes} {letter : Char}
    (h : readCharacter first bytes = (letter, rest)) :
    characters (first :: bytes) = letter :: characters rest := by
  rw [characters, h]

/-- The number of a character is read from the bytes that it is written in. -/
theorem Form.characters_append {value lead count : Nat} (h : Form value lead count)
    (hvalid : value < 0xd800 ∨ 0xdfff < value) (rest : Bytes) :
    characters (grouped lead count value ++ rest) = Char.ofNat value :: characters rest := by
  have hfirst {number : Nat} (hnumber : number < 256) :
      (UInt8.ofNat number).toNat = number := by
    rw [UInt8.toNat_ofNat']
    omega
  cases h with
  | one h =>
      refine characters_cons_of_readCharacter ?_
      rw [readCharacter, hfirst (by omega), Nat.zero_add, following?_one h]
      rfl
  | two hleast h =>
      refine characters_cons_of_readCharacter ?_
      rw [readCharacter, hfirst (by omega), following?_two hleast h]
      show readRest _ _ (continuation value :: rest) = _
      rw [readRest_anyContinuation, readRest]
      congr 2
      omega
  | three hleast h =>
      obtain ⟨low, high, hfollowing, hlow, hhigh⟩ := following?_three hleast h hvalid
      refine characters_cons_of_readCharacter ?_
      rw [readCharacter, hfirst (by omega), hfollowing]
      show readRest _ _ (continuation (value / 64) :: continuation value :: rest) = _
      rw [readRest_cons hlow hhigh, readRest_anyContinuation, readRest]
      congr 2
      omega
  | four hleast h =>
      obtain ⟨low, high, hfollowing, hlow, hhigh⟩ := following?_four hleast h
      refine characters_cons_of_readCharacter ?_
      rw [readCharacter, hfirst (by omega), hfollowing]
      show readRest _ _ (continuation (value / 64 / 64) :: continuation (value / 64) ::
        continuation value :: rest) = _
      rw [readRest_cons hlow hhigh, readRest_anyContinuation, readRest_anyContinuation, readRest]
      congr 2
      omega

theorem characters_utf8EncodeChar_append (letter : Char) (rest : Bytes) :
    characters (String.utf8EncodeChar letter ++ rest) = letter :: characters rest := by
  obtain ⟨lead, count, hform, hbytes⟩ := exists_form letter
  have hvalid : letter.val.toNat < 0xd800 ∨ 0xdfff < letter.val.toNat := by
    have := letter.valid
    simp only [UInt32.isValidChar, Nat.isValidChar] at this
    omega
  rw [hbytes, hform.characters_append hvalid]
  exact congrArg (· :: characters rest) (Char.ofNat_toNat letter)

/-- The bytes of a text are read as the text. -/
theorem decodeLossy_bytes (text : String) : decodeLossy (bytes text) = text := by
  have hletters (letters : List Char) :
      characters (letters.flatMap String.utf8EncodeChar) = letters := by
    induction letters with
    | nil => rw [List.flatMap_nil, characters]
    | cons letter letters ih =>
        rw [List.flatMap_cons, characters_utf8EncodeChar_append, ih]
  rw [decodeLossy, bytes, hletters, String.ofList_toList]

/-- The bytes of a text are UTF-8. -/
theorem decode?_bytes (text : String) : decode? (bytes text) = some text := by
  have hbytes : (⟨(bytes text).toArray⟩ : ByteArray) = text.toUTF8 := by
    rw [← toByteArray_bytes]
    ext1
    rw [List.data_toByteArray]
  have hvalid : text.toUTF8.IsValidUTF8 := text.isValidUTF8
  unfold decode? String.fromUTF8?
  rw [hbytes, dif_pos hvalid]
  rfl

end CallRedirect.Utf8
