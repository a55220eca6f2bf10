import CallRedirect.Bytes
import Mathlib.Algebra.Group.Nat.Defs

/-!
# Numbers in byte strings

Reading a part of a byte string depends on its first bytes only, so it can be
followed along the pieces that the string is put together from.  Writing a
number in a fixed number of bytes is undone by reading it, up to the highest
value that fits.
-/

namespace CallRedirect

/-! ## Parts -/

theorem slice?_eq_some_iff {bytes part : Bytes} {skip width : Nat} :
    slice? bytes skip width = some part ↔
      part.length = width ∧ ∃ after, bytes.drop skip = part ++ after := by
  simp only [slice?]
  constructor
  · intro h
    split at h
    · next hlength =>
      cases h
      exact ⟨hlength, (bytes.drop skip).drop width, (List.take_append_drop _ _).symm⟩
    · cases h
  · rintro ⟨hlength, after, hdrop⟩
    rw [hdrop, List.take_left' hlength, if_pos hlength]

/-- A part is read from where it was put. -/
theorem slice?_append {front part : Bytes} (skip width : Nat) (after : Bytes)
    (hskip : front.length = skip) (hwidth : part.length = width) :
    slice? (front ++ (part ++ after)) skip width = some part :=
  slice?_eq_some_iff.2 ⟨hwidth, after, List.drop_left' hskip⟩

theorem word?_append {front part : Bytes} (skip width : Nat) (after : Bytes)
    (hskip : front.length = skip) (hwidth : part.length = width) :
    word? (front ++ (part ++ after)) skip width = some (bigEndian part) := by
  rw [word?, slice?_append skip width after hskip hwidth, Option.map_some]

/-- What stands behind a byte string does not matter for the parts inside it. -/
theorem slice?_append_of_le {bytes : Bytes} {skip width : Nat} (h : skip + width ≤ bytes.length)
    (more : Bytes) : slice? (bytes ++ more) skip width = slice? bytes skip width := by
  have hpart : ((bytes ++ more).drop skip).take width = (bytes.drop skip).take width := by
    rw [List.drop_append_of_le_length (by omega),
      List.take_append_of_le_length (by rw [List.length_drop]; omega)]
  simp only [slice?, hpart]

theorem word?_append_of_le {bytes : Bytes} {skip width : Nat} (h : skip + width ≤ bytes.length)
    (more : Bytes) : word? (bytes ++ more) skip width = word? bytes skip width := by
  rw [word?, word?, slice?_append_of_le h]

theorem slice?_drop (bytes : Bytes) (offset skip width : Nat) :
    slice? (bytes.drop offset) skip width = slice? bytes (offset + skip) width := by
  simp only [slice?, List.drop_drop]

theorem slice?_take (bytes : Bytes) (place width : Nat) :
    slice? (bytes.take (place + width)) place width = slice? bytes place width := by
  simp only [slice?, List.drop_take, Nat.add_sub_cancel_left, List.take_take, Nat.min_self]

/-- Two bytes make a word, the first one in front. -/
theorem word?_two_eq_some_iff {bytes : Bytes} {skip word : Nat} :
    word? bytes skip 2 = some word ↔ ∃ high low,
      bytes[skip]? = some high ∧ bytes[skip + 1]? = some low ∧
        256 * high.toNat + low.toNat = word := by
  have hfirst : bytes[skip]? = (bytes.drop skip)[0]? := by rw [List.getElem?_drop, Nat.add_zero]
  have hsecond : bytes[skip + 1]? = (bytes.drop skip)[1]? := by rw [List.getElem?_drop]
  rw [hfirst, hsecond, word?, slice?]
  rcases bytes.drop skip with _ | ⟨high, _ | ⟨low, rest⟩⟩
  · simp
  · simp
  · simp [bigEndian]

/-! ## Numbers -/

theorem bigEndian_lt (bytes : Bytes) : bigEndian bytes < 256 ^ bytes.length := by
  -- the accumulator of the fold is general
  have hfold (start : Nat) :
      bytes.foldl (fun value byte => 256 * value + byte.toNat) start <
        256 ^ bytes.length * (start + 1) := by
    induction bytes generalizing start with
    | nil => simp
    | cons byte rest ih =>
        rw [List.foldl_cons, List.length_cons, Nat.pow_succ, Nat.mul_assoc]
        refine Nat.lt_of_lt_of_le (ih _) (Nat.mul_le_mul_left _ ?_)
        have := byte.toNat_lt
        omega
  simpa [bigEndian] using hfold 0

/-- A word is below the first number that it has no room for. -/
theorem word?_lt {bytes : Bytes} {skip width word : Nat} (h : word? bytes skip width = some word) :
    word < 256 ^ width := by
  obtain ⟨part, hpart, rfl⟩ := Option.map_eq_some_iff.1 h
  rw [← length_of_slice? hpart]
  exact bigEndian_lt part

/-- The lowest `width` digits of a number in base 256, most significant first. -/
def bytesOf : Nat → Nat → Bytes
  | 0, _ => []
  | width + 1, value => bytesOf width (value / 256) ++ [UInt8.ofNat value]

@[simp] theorem length_bytesOf (width value : Nat) : (bytesOf width value).length = width := by
  induction width generalizing value with
  | zero => rfl
  | succ width ih => simp [bytesOf, ih]

theorem bigEndian_bytesOf {width value : Nat} (h : value < 256 ^ width) :
    bigEndian (bytesOf width value) = value := by
  induction width generalizing value with
  | zero =>
      rw [Nat.pow_zero, Nat.lt_one_iff] at h
      simp [bytesOf, bigEndian, h]
  | succ width ih =>
      have hquotient : value / 256 < 256 ^ width := by
        rw [Nat.div_lt_iff_lt_mul (by decide), ← Nat.pow_succ]
        exact h
      rw [bytesOf, bigEndian_append_singleton, ih hquotient, UInt8.toNat_ofNat']
      omega

/-- Any bytes are the digits of the number that is read from them. -/
theorem bytesOf_bigEndian {width : Nat} {part : Bytes} (h : part.length = width) :
    bytesOf width (bigEndian part) = part := by
  induction width generalizing part with
  | zero => rw [List.length_eq_zero_iff.1 h, bytesOf]
  | succ width ih =>
      have hne : part ≠ [] := by
        rintro rfl
        cases h
      obtain ⟨front, last, rfl⟩ : ∃ front last, part = front ++ [last] :=
        ⟨part.dropLast, part.getLast hne, (List.dropLast_concat_getLast hne).symm⟩
      have hfront : front.length = width := by simpa using h
      have hdigit := last.toNat_lt
      have hquotient : (256 * bigEndian front + last.toNat) / 256 = bigEndian front := by omega
      have hlast : UInt8.ofNat (256 * bigEndian front + last.toNat) = last := by
        rw [← UInt8.toNat_inj, UInt8.toNat_ofNat']
        omega
      rw [bytesOf, bigEndian_append_singleton, hquotient, ih hfront, hlast]

/-! ## Signed words -/

/-- The four bytes of a signed word. -/
def signedBytes (word : Int32) : Bytes :=
  bytesOf 4 word.toUInt32.toNat

@[simp] theorem length_signedBytes (word : Int32) : (signedBytes word).length = 4 :=
  length_bytesOf 4 _

theorem bigEndian_signedBytes_lt (word : Int32) : bigEndian (signedBytes word) < 2 ^ 32 := by
  have h := bigEndian_lt (signedBytes word)
  rwa [length_signedBytes] at h

/-- A word that is not negative in two's complement is the number itself. -/
theorem eq_of_signed32_eq {word value : Nat} (hword : word < 2 ^ 32)
    (h : signed32 word = value) : word = value := by
  unfold signed32 at h
  split at h <;> omega

theorem signed32_toNat (word : Int32) : signed32 word.toUInt32.toNat = word.toInt := by
  have hword : word.toInt = word.toBitVec.toInt := rfl
  have hnat : word.toUInt32.toNat = word.toBitVec.toNat := rfl
  rw [signed32, hword, hnat, BitVec.toInt_eq_toNat_cond]
  split <;> split <;> omega

theorem signed32_bigEndian_signedBytes (word : Int32) :
    signed32 (bigEndian (signedBytes word)) = word.toInt := by
  rw [signedBytes, bigEndian_bytesOf, signed32_toNat]
  exact word.toUInt32.toNat_lt

/-! ## Pieces -/

/-- A byte string falls into two pieces of given lengths. -/
theorem exists_append_of_length {bytes : Bytes} {first second : Nat}
    (h : bytes.length = first + second) :
    ∃ front back, bytes = front ++ back ∧ front.length = first ∧ back.length = second := by
  refine ⟨bytes.take first, bytes.drop first, (List.take_append_drop _ _).symm, ?_, ?_⟩
  · rw [List.length_take]
    omega
  · rw [List.length_drop]
    omega

/-- If all strings of some width are written by `write`, then all strings of a
multiple of that width are written by writing several items. -/
theorem exists_flatMap_of_length {α : Type} {write : α → Bytes} {width : Nat}
    (hwrite : ∀ part : Bytes, part.length = width → ∃ item, write item = part)
    {bytes : Bytes} {count : Nat} (h : bytes.length = width * count) :
    ∃ items : List α, items.length = count ∧ items.flatMap write = bytes := by
  induction count generalizing bytes with
  | zero => exact ⟨[], rfl, (List.length_eq_zero_iff.1 h).symm⟩
  | succ count ih =>
      obtain ⟨front, back, rfl, hfront, hback⟩ :=
        exists_append_of_length
          (show bytes.length = width + width * count by rw [h, Nat.mul_succ]; omega)
      obtain ⟨item, rfl⟩ := hwrite front hfront
      obtain ⟨items, hitems, rfl⟩ := ih hback
      exact ⟨item :: items, by rw [List.length_cons, hitems], List.flatMap_cons⟩

/-- Any four bytes are a signed word. -/
theorem exists_signedBytes {part : Bytes} (h : part.length = 4) :
    ∃ word, signedBytes word = part := by
  have hword : bigEndian part < 2 ^ 32 := by simpa [h] using bigEndian_lt part
  refine ⟨(UInt32.ofNat (bigEndian part)).toInt32, ?_⟩
  have hnumber : (UInt32.ofNat (bigEndian part)).toInt32.toUInt32.toNat = bigEndian part :=
    UInt32.toNat_ofNat_of_lt' hword
  rw [signedBytes, hnumber, bytesOf_bigEndian h]

/-- Four bytes that are read as a word are those of a signed word. -/
theorem word?_four_eq_some_iff {bytes : Bytes} {skip word : Nat} :
    word? bytes skip 4 = some word ↔
      ∃ value, slice? bytes skip 4 = some (signedBytes value) ∧
        bigEndian (signedBytes value) = word := by
  rw [word?, Option.map_eq_some_iff]
  constructor
  · rintro ⟨part, hpart, rfl⟩
    obtain ⟨value, rfl⟩ := exists_signedBytes (length_of_slice? hpart)
    exact ⟨value, hpart, rfl⟩
  · rintro ⟨value, hpart, rfl⟩
    exact ⟨_, hpart, rfl⟩

/-- Four bytes in front are a signed word. -/
theorem exists_signedBytes_append {bytes : Bytes} {count : Nat} (h : bytes.length = 4 + count) :
    ∃ word rest, bytes = signedBytes word ++ rest ∧ rest.length = count := by
  obtain ⟨front, rest, rfl, hfront, hrest⟩ := exists_append_of_length h
  obtain ⟨word, rfl⟩ := exists_signedBytes hfront
  exact ⟨word, rest, rfl, hrest⟩

end CallRedirect
