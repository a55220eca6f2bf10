import CallRedirect.Bytecode.Length
import CallRedirect.Proofs.Outcome
import Mathlib.Algebra.Group.Nat.Defs

/-!
# When an instruction has a length

One equivalence for each kind of instruction says which words have to stand
behind the opcode, and which length they give.  All later statements about
lengths go through these.
-/

namespace CallRedirect.Bytecode

theorem readWord_eq_ok_iff {bits offset skip word : Nat} {rest : Bytes} :
    readWord bits offset rest skip = .ok word ↔ word? rest skip (bits / 8) = some word := by
  unfold readWord
  cases word? rest skip (bits / 8) <;> simp

theorem tableCount_eq_ok_iff {low high : Int} {count : Nat} :
    tableCount low high = .ok count ↔
      (count : Int) = high - low + 1 ∧ count < 2 ^ 31 := by
  unfold tableCount
  split
  · rw [Except.ok.injEq]
    omega
  · simp only [reduceCtorEq, false_iff]
    omega

theorem claimedLength_tableSwitch_eq_ok_iff {offset length : Nat} {rest : Bytes} :
    claimedLength offset tableSwitch rest = .ok length ↔
      ∃ low high count : Nat,
        word? rest (1 + padding offset + 4) 4 = some low ∧
        word? rest (1 + padding offset + 8) 4 = some high ∧
        (count : Int) = signed32 high - signed32 low + 1 ∧ count < 2 ^ 31 ∧
        1 + padding offset + 12 + 4 * count = length := by
  simp only [claimedLength, if_true, bind_eq_ok_iff, readWord_eq_ok_iff, tableCount_eq_ok_iff,
    pure_eq_ok_iff]
  constructor
  · rintro ⟨low, hlow, high, hhigh, count, ⟨hcount, hfits⟩, hlength⟩
    exact ⟨low, high, count, hlow, hhigh, hcount, hfits, hlength⟩
  · rintro ⟨low, high, count, hlow, hhigh, hcount, hfits, hlength⟩
    exact ⟨low, hlow, high, hhigh, count, ⟨hcount, hfits⟩, hlength⟩

theorem claimedLength_lookupSwitch_eq_ok_iff {offset length : Nat} {rest : Bytes} :
    claimedLength offset lookupSwitch rest = .ok length ↔
      ∃ count,
        word? rest (1 + padding offset + 4) 4 = some count ∧ 0 ≤ signed32 count ∧
        1 + padding offset + 8 + 8 * count = length := by
  have hopcode : lookupSwitch ≠ tableSwitch := by decide
  simp only [claimedLength, hopcode, if_false, if_true, bind_eq_ok_iff, readWord_eq_ok_iff]
  refine exists_congr fun count => and_congr_right fun _ => ?_
  by_cases hnegative : signed32 count < 0
  · have hbelow : ¬ 0 ≤ signed32 count := by omega
    simp only [hnegative, hbelow, if_true, throw, throwThe, MonadExceptOf.throw, bind, Except.bind,
      reduceCtorEq, false_and]
  · simp only [hnegative, if_false, pure_eq_ok_iff]
    omega

theorem claimedLength_wide_eq_ok_iff {offset length : Nat} {rest : Bytes} :
    claimedLength offset wide rest = .ok length ↔
      ∃ widened, rest[1]? = some widened ∧ (if widened = increment then 6 else 4) = length := by
  have htable : wide ≠ tableSwitch := by decide
  have hlookup : wide ≠ lookupSwitch := by decide
  simp only [claimedLength, htable, hlookup, if_false, if_true]
  cases rest[1]? with
  | none => simp
  | some widened => simp

theorem claimedLength_plain {offset : Nat} {opcode : UInt8} {rest : Bytes}
    (htable : opcode ≠ tableSwitch) (hlookup : opcode ≠ lookupSwitch) (hwide : opcode ≠ wide) :
    claimedLength offset opcode rest = .ok (plainLength opcode) := by
  simp [claimedLength, htable, hlookup, hwide]

/-- An instruction has the length that it claims if all of it is there. -/
theorem lengthAt_cons_eq_ok_iff {offset length : Nat} {opcode : UInt8} {tail : Bytes} :
    lengthAt offset (opcode :: tail) = .ok length ↔
      claimedLength offset opcode (opcode :: tail) = .ok length ∧
        length ≤ (opcode :: tail).length := by
  simp only [lengthAt, bind_eq_ok_iff, List.length_take]
  constructor
  · rintro ⟨claimed, hclaimed, hfits⟩
    split at hfits
    · cases hfits
    · cases hfits
      exact ⟨hclaimed, by omega⟩
  · rintro ⟨hclaimed, hfits⟩
    refine ⟨length, hclaimed, ?_⟩
    rw [if_neg (by omega)]
    rfl

end CallRedirect.Bytecode
