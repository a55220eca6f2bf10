import CallRedirect.Text.Utf8
import Mathlib.Algebra.Group.Nat.Defs
import Mathlib.Data.List.Basic
import Mathlib.Data.List.Perm.Basic

/-!
# The order of names

Names are ordered character by character.  UTF-8 is made so that this is the order of
their bytes, too (`Utf8.bytes_lt_bytes_iff`): a character with a greater number has a
greater first byte, or the same one and greater groups of six bits behind it.

Where names differ, sorting by name leaves one order only
(`mergeSort_name_eq_of_perm`).
-/

namespace CallRedirect

/-! ## The bytes of a character -/

namespace Utf8

theorem toByteArray_bytes (text : String) : (bytes text).toByteArray = text.toUTF8 :=
  String.utf8Encode_toList

/-- A number in groups of six bits, each in a byte of its own.  In the first byte stands what is
left of the number, behind `lead`. -/
def grouped (lead : Nat) : Nat → Nat → Bytes
  | 0, value => [UInt8.ofNat (lead + value)]
  | count + 1, value => grouped lead count (value / 64) ++ [UInt8.ofNat (value % 64 + 128)]

/-- How the number of a character is written: with which lead, and how many groups follow. -/
inductive Form : Nat → Nat → Nat → Prop
  | one {value : Nat} (h : value < 128) : Form value 0 0
  | two {value : Nat} (hleast : 128 ≤ value) (h : value < 2048) : Form value 192 1
  | three {value : Nat} (hleast : 2048 ≤ value) (h : value < 65536) : Form value 224 2
  | four {value : Nat} (hleast : 65536 ≤ value) (h : value < 1114112) : Form value 240 3

theorem exists_form (letter : Char) :
    ∃ lead count, Form letter.val.toNat lead count ∧
      String.utf8EncodeChar letter = grouped lead count letter.val.toNat := by
  have hmax : letter.val.toNat < 1114112 := by
    have hvalid := letter.valid
    simp only [UInt32.isValidChar, Nat.isValidChar] at hvalid
    omega
  unfold String.utf8EncodeChar
  generalize letter.val.toNat = value at hmax
  dsimp only
  -- one branch of the encoding for each form
  split
  · exact ⟨0, 0, .one (by omega), by simp [grouped]⟩
  · split
    · have hfirst : value / 64 % 32 + 192 = 192 + value / 64 := by omega
      exact ⟨192, 1, .two (by omega) (by omega), by simp [grouped, hfirst]⟩
    · split
      · have hfirst : value / 4096 % 16 + 224 = 224 + value / 64 / 64 := by omega
        exact ⟨224, 2, .three (by omega) (by omega), by simp [grouped, hfirst]⟩
      · have hfirst : value / 262144 % 8 + 240 = 240 + value / 64 / 64 / 64 := by omega
        have hsecond : value / 4096 = value / 64 / 64 := by omega
        exact ⟨240, 3, .four (by omega) hmax, by simp [grouped, hfirst, hsecond]⟩

theorem ofNat_lt_ofNat {small large : Nat} (h : small < large) (hlarge : large < 256) :
    UInt8.ofNat small < UInt8.ofNat large := by
  rw [UInt8.lt_iff_toNat_lt, UInt8.toNat_ofNat', UInt8.toNat_ofNat']
  omega

theorem exists_grouped_eq_cons (lead count value : Nat) :
    ∃ rest, grouped lead count value = UInt8.ofNat (lead + value / 64 ^ count) :: rest := by
  induction count generalizing value with
  | zero => exact ⟨[], by simp [grouped]⟩
  | succ count ih =>
      obtain ⟨rest, hrest⟩ := ih (value / 64)
      refine ⟨rest ++ [UInt8.ofNat (value % 64 + 128)], ?_⟩
      rw [grouped, hrest, Nat.div_div_eq_div_mul, Nat.pow_succ, Nat.mul_comm]
      rfl

/-- Numbers that are written with the same lead and the same number of groups are ordered as
their bytes are, whatever follows. -/
theorem grouped_append_lt {lead count small large : Nat} (h : small < large)
    (hlarge : lead + large / 64 ^ count < 256) (back back' : Bytes) :
    grouped lead count small ++ back < grouped lead count large ++ back' := by
  induction count generalizing small large back back' with
  | zero =>
      simp only [Nat.pow_zero, Nat.div_one] at hlarge
      exact List.cons_lt_cons_iff.2 (.inl (ofNat_lt_ofNat (by omega) hlarge))
  | succ count ih =>
      have hshorter : lead + large / 64 / 64 ^ count < 256 := by
        rw [Nat.div_div_eq_div_mul, Nat.mul_comm, ← Nat.pow_succ]
        exact hlarge
      rw [grouped, grouped, List.append_assoc, List.append_assoc]
      -- either the front parts differ, or the last groups do
      rcases Nat.lt_or_ge (small / 64) (large / 64) with hfront | hfront
      · exact ih hfront hshorter _ _
      · have hsame : small / 64 = large / 64 := by omega
        rw [hsame]
        refine List.append_left_lt (List.cons_lt_cons_iff.2 (.inl ?_))
        exact ofNat_lt_ofNat (by omega) (by omega)

theorem Form.lead_lt {small large lead lead' count count' : Nat} (hsmall : Form small lead count)
    (hlarge : Form large lead' count') (h : small < large) :
    (lead = lead' ∧ count = count') ∨
      lead + small / 64 ^ count < lead' + large / 64 ^ count' := by
  -- where the forms differ, the leads are further apart than the first groups can make up for
  cases hsmall <;> cases hlarge <;>
    first
    | exact .inl ⟨rfl, rfl⟩
    | exact .inr (by simp only [Nat.reducePow]; omega)

theorem Form.first_lt {value lead count : Nat} (h : Form value lead count) :
    lead + value / 64 ^ count < 256 := by
  cases h <;> simp only [Nat.reducePow] <;> omega

/-- The greater of two characters has the greater bytes, whatever follows. -/
theorem utf8EncodeChar_append_lt {small large : Char} (h : small < large) (back back' : Bytes) :
    String.utf8EncodeChar small ++ back < String.utf8EncodeChar large ++ back' := by
  have hvalue : small.val.toNat < large.val.toNat := h
  obtain ⟨lead, count, hsmall, hbytes⟩ := exists_form small
  obtain ⟨lead', count', hlarge, hbytes'⟩ := exists_form large
  rw [hbytes, hbytes']
  -- in one form the numbers are compared group by group, else the first bytes decide
  rcases hsmall.lead_lt hlarge hvalue with ⟨rfl, rfl⟩ | hfirst
  · exact grouped_append_lt hvalue hlarge.first_lt back back'
  · obtain ⟨rest, hrest⟩ := exists_grouped_eq_cons lead count small.val.toNat
    obtain ⟨rest', hrest'⟩ := exists_grouped_eq_cons lead' count' large.val.toNat
    rw [hrest, hrest']
    exact List.cons_lt_cons_iff.2 (.inl (ofNat_lt_ofNat hfirst hlarge.first_lt))

/-! ## The bytes of a text -/

theorem flatMap_lt_flatMap {small large : List Char} (h : small < large) :
    small.flatMap String.utf8EncodeChar < large.flatMap String.utf8EncodeChar := by
  induction h with
  | @nil letter letters =>
      obtain ⟨lead, count, -, hbytes⟩ := exists_form letter
      obtain ⟨rest, hrest⟩ := exists_grouped_eq_cons lead count letter.val.toNat
      rw [List.flatMap_nil, List.flatMap_cons, hbytes, hrest]
      exact List.nil_lt_cons _ _
  | rel hletter =>
      rw [List.flatMap_cons, List.flatMap_cons]
      exact utf8EncodeChar_append_lt hletter _ _
  | cons _ ih =>
      rw [List.flatMap_cons, List.flatMap_cons]
      exact List.append_left_lt ih

/-- Texts are ordered as their bytes are. -/
theorem bytes_lt_bytes_iff {small large : String} : bytes small < bytes large ↔ small < large := by
  constructor
  · intro h
    rw [← Decidable.not_not (p := small < large), String.not_lt]
    intro hle
    by_cases hlt : large < small
    · exact List.lt_asymm h (flatMap_lt_flatMap hlt)
    · rw [String.le_antisymm hle (String.not_lt.1 hlt)] at h
      exact List.lt_irrefl _ h
  · exact flatMap_lt_flatMap

end Utf8

/-! ## Sorting by name -/

section Sorting

variable {α : Type} {name : α → String} {items others : List α}

theorem pairwise_mergeSort_name_le (name : α → String) (items : List α) :
    (items.mergeSort fun first second => name first ≤ name second).Pairwise
      fun first second => name first ≤ name second := by
  let le (first second : α) : Bool := name first ≤ name second
  have htrans (first second third : α) (hfirst : le first second = true)
      (hsecond : le second third = true) : le first third = true :=
    decide_eq_true (String.le_trans (of_decide_eq_true hfirst) (of_decide_eq_true hsecond))
  have htotal (first second : α) : (le first second || le second first) = true := by
    simpa [le] using String.le_total (name first) (name second)
  exact (List.pairwise_mergeSort htrans htotal items).imp of_decide_eq_true

theorem nodup_map_mergeSort (h : (items.map name).Nodup) :
    ((items.mergeSort fun first second => name first ≤ name second).map name).Nodup :=
  ((List.mergeSort_perm items _).map name).nodup_iff.2 h

/-- Sorted items with different names have growing names. -/
theorem pairwise_mergeSort_name_lt (h : (items.map name).Nodup) :
    (items.mergeSort fun first second => name first ≤ name second).Pairwise
      fun first second => name first < name second := by
  have hdistinct := List.pairwise_map.1 (nodup_map_mergeSort h)
  refine ((pairwise_mergeSort_name_le name items).and hdistinct).imp ?_
  rintro first second ⟨hle, hne⟩
  rw [← Decidable.not_not (p := name first < name second), String.not_lt]
  exact fun hge => hne (String.le_antisymm hle hge)

/-- Items with different names are sorted into one list, however they stood before. -/
theorem mergeSort_name_eq_of_perm (hperm : items.Perm others) (h : (items.map name).Nodup) :
    (items.mergeSort fun first second => name first ≤ name second) =
      others.mergeSort fun first second => name first ≤ name second := by
  have hothers : (others.map name).Nodup := (hperm.map name).nodup_iff.1 h
  refine List.Perm.eq_of_pairwise ?_ (pairwise_mergeSort_name_lt h)
    (pairwise_mergeSort_name_lt hothers)
    (((List.mergeSort_perm items _).trans hperm).trans (List.mergeSort_perm others _).symm)
  intro first second _ _ hlt hgt
  exact absurd hgt (String.lt_asymm hlt)

end Sorting

end CallRedirect
