import CallRedirect.Run
import Mathlib.Data.List.Induction

/-!
# Delivering a report

A medium takes the front of what it is handed.  How the bytes are divided into pieces makes
no difference to what is taken: either all of them, or as many as there is room for
(`Medium.giveAll_of_hasRoom`, `Medium.giveAll_of_lt`).  Where a piece starts and ends only
settles which piece fails, and so how the failure is explained.

A report is handed over in two pieces.  `RunResult.write_of_hasRoom` and
`RunResult.write_of_lt` say what is taken of it and how that ends.
-/

namespace CallRedirect

/-! ## Room -/

/-- There is room for bytes. -/
def HasRoom (limit : Option Limit) (bytes : Bytes) : Prop :=
  ∀ stop ∈ limit, bytes.length ≤ stop.room

/-- What is left of a limit once bytes were handed over. -/
def Limit.after (stop : Limit) (bytes : Bytes) : Limit :=
  { stop with room := stop.room - bytes.length }

@[simp] theorem hasRoom_none (bytes : Bytes) : HasRoom none bytes := fun _ hstop => nomatch hstop

@[simp] theorem hasRoom_some {stop : Limit} {bytes : Bytes} :
    HasRoom (some stop) bytes ↔ bytes.length ≤ stop.room := by
  simp [HasRoom]

theorem hasRoom_append {limit : Option Limit} {front back : Bytes} :
    HasRoom limit (front ++ back) ↔
      HasRoom limit front ∧ HasRoom (limit.map (·.after front)) back := by
  cases limit with
  | none => simp
  | some stop =>
      simp only [Option.map_some, hasRoom_some, List.length_append, Limit.after]
      omega

theorem map_after_append (limit : Option Limit) (front back : Bytes) :
    limit.map (·.after (front ++ back)) = (limit.map (·.after front)).map (·.after back) := by
  cases limit <;> simp [Limit.after, Nat.sub_sub]

/-! ## Bytes handed to a medium -/

/-- The bytes of pieces that are handed over in order. -/
def Piece.whole {ε : Type} (pieces : List (Piece ε)) : Bytes := pieces.flatMap Piece.bytes

theorem Piece.whole_cons {ε : Type} (piece : Piece ε) (pieces : List (Piece ε)) :
    whole (piece :: pieces) = piece.bytes ++ whole pieces := List.flatMap_cons

namespace Medium

variable {medium : Medium} {stop : Limit} {bytes : Bytes}

theorem give_of_hasRoom (h : HasRoom medium.limit bytes) :
    medium.give bytes =
      (⟨medium.taken ++ bytes, medium.limit.map (·.after bytes)⟩, .ok ()) := by
  obtain ⟨taken, limit⟩ := medium
  cases limit with
  | none => rfl
  | some stop =>
      have hroom : bytes.length ≤ stop.room := hasRoom_some.1 h
      dsimp only [give]
      rw [List.take_of_length_le hroom, if_pos hroom]
      rfl

theorem give_of_lt (hlimit : medium.limit = some stop) (h : stop.room < bytes.length) :
    medium.give bytes =
      (⟨medium.taken ++ bytes.take stop.room, some (stop.after bytes)⟩, .error stop.cause) := by
  obtain ⟨taken, limit⟩ := medium
  cases hlimit
  dsimp only [give]
  rw [if_neg (Nat.not_le.2 h)]
  rfl

variable {ε : Type} {pieces : List (Piece ε)}

theorem giveAll_cons_of_hasRoom {piece : Piece ε} (h : HasRoom medium.limit piece.bytes) :
    medium.giveAll (piece :: pieces) =
      giveAll ⟨medium.taken ++ piece.bytes, medium.limit.map (·.after piece.bytes)⟩ pieces := by
  rw [giveAll, give_of_hasRoom h]

/-- If there is room for all pieces, all of them are taken. -/
theorem giveAll_of_hasRoom (h : HasRoom medium.limit (Piece.whole pieces)) :
    medium.giveAll pieces =
      (⟨medium.taken ++ Piece.whole pieces, medium.limit.map (·.after (Piece.whole pieces))⟩,
        .ok ()) := by
  induction pieces generalizing medium with
  | nil =>
      obtain ⟨taken, limit⟩ := medium
      cases limit <;> simp [giveAll, Piece.whole, Limit.after]
  | cons piece pieces ih =>
      rw [Piece.whole_cons] at h ⊢
      obtain ⟨hfront, hback⟩ := hasRoom_append.1 h
      rw [giveAll_cons_of_hasRoom hfront, ih hback, List.append_assoc, map_after_append]

/-- If there is not, as many bytes are taken as there is room for, and the piece that goes
beyond them fails. -/
theorem giveAll_of_lt (hlimit : medium.limit = some stop)
    (h : stop.room < (Piece.whole pieces).length) :
    (medium.giveAll pieces).1.taken = medium.taken ++ (Piece.whole pieces).take stop.room ∧
      ∃ before piece after, pieces = before ++ piece :: after ∧
        (Piece.whole before).length ≤ stop.room ∧
        stop.room < (Piece.whole before).length + piece.bytes.length ∧
        (medium.giveAll pieces).2 = .error (piece.explain stop.cause) := by
  induction pieces generalizing medium stop with
  | nil => exact absurd h (Nat.not_lt_zero _)
  | cons piece pieces ih =>
      rw [Piece.whole_cons] at h ⊢
      -- either the first piece goes beyond the limit, or the limit moves on behind it
      by_cases hroom : stop.room < piece.bytes.length
      · rw [giveAll, give_of_lt hlimit hroom, List.take_append_of_le_length (Nat.le_of_lt hroom)]
        refine ⟨rfl, [], piece, pieces, rfl, Nat.zero_le _, ?_, rfl⟩
        rwa [Piece.whole, List.flatMap_nil, List.length_nil, Nat.zero_add]
      · have hfits : piece.bytes.length ≤ stop.room := Nat.not_lt.1 hroom
        have hfront : HasRoom medium.limit piece.bytes := by
          rw [hlimit]
          exact hasRoom_some.2 hfits
        have hleft : (stop.after piece.bytes).room = stop.room - piece.bytes.length := rfl
        have hrest : (stop.after piece.bytes).room < (Piece.whole pieces).length := by
          rw [List.length_append] at h
          omega
        rw [giveAll_cons_of_hasRoom hfront, hlimit, Option.map_some]
        obtain ⟨htaken, before, failed, after, rfl, hbefore, hfailed, hending⟩ :=
          @ih ⟨medium.taken ++ piece.bytes, some (stop.after piece.bytes)⟩ _ rfl hrest
        rw [hleft] at htaken hbefore hfailed
        refine ⟨?_, piece :: before, failed, after, rfl, ?_, ?_, hending⟩
        · rw [htaken, List.take_append, List.take_of_length_le hfits, List.append_assoc]
        · rw [Piece.whole_cons, List.length_append]
          omega
        · rw [Piece.whole_cons, List.length_append]
          omega

end Medium

/-! ## A report that is written -/

/-- A byte occurs behind the first `count` bytes if and only if its last place is there. -/
theorem mem_drop_iff_lt_length_dropWhile {bytes : Bytes} {byte : UInt8} {count : Nat} :
    byte ∈ bytes.drop count ↔ count < (bytes.reverse.dropWhile (· ≠ byte)).length := by
  induction bytes using List.reverseRecOn with
  | nil => simp
  | append_singleton bytes last ih =>
      rw [List.reverse_append, List.reverse_singleton, List.singleton_append]
      by_cases hlast : last = byte
      · rw [List.dropWhile_cons_of_neg (by simpa using hlast), List.length_cons,
          List.length_reverse, Nat.lt_succ_iff]
        constructor
        · intro hmem
          have hpositive := List.length_pos_of_mem hmem
          rw [List.length_drop, List.length_append, List.length_singleton] at hpositive
          omega
        · intro hcount
          rw [List.drop_append_of_le_length hcount, hlast]
          exact List.mem_append_right _ (List.mem_singleton_self byte)
      · have hother : byte ∉ [last].drop (count - bytes.length) := fun hmem =>
          hlast (List.mem_singleton.1 (List.mem_of_mem_drop hmem)).symm
        rw [List.dropWhile_cons_of_pos (by simpa using hlast), ← ih, List.drop_append,
          List.mem_append, or_iff_left hother]

theorem Utf8.bytes_append (front back : String) :
    bytes (front ++ back) = bytes front ++ bytes back := by
  rw [bytes, String.toList_append, List.flatMap_append]
  rfl

theorem Json.Value.bytes_pretty_object_ne_nil (members : List (String × Value)) :
    Utf8.bytes (object members).pretty ≠ [] := by
  show Utf8.bytes (block "\x7b" "\x7d" 0 (prettyMembers 1 members)) ≠ []
  have hopening : Utf8.bytes "\x7b" ≠ [] := by decide
  unfold block
  split
  · decide
  · simp [Utf8.bytes_append, hopening]

namespace RunResult

variable {result : RunResult} {limit : Option Limit} {stop : Limit}

theorem whole_pieces (result : RunResult) : Piece.whole result.pieces = result.bytes := by
  simp [Piece.whole, pieces]

/-- Why a report is not written as a whole.  A file fails while the report is made, unless only
the line break at the end is left.  The standard output does if a line of the report itself was
still to be ended. -/
def stopError (result : RunResult) (stop : Limit) : RunError :=
  let body := Utf8.bytes result.report.pretty
  let early : Bool :=
    match result.destination with
    | .file _ => stop.room < body.length
    | .standardOutput => '\n'.toUInt8 ∈ body.drop stop.room
  if early then .unserialized stop.cause else .unwritten stop.cause

theorem stopError_eq_ite (result : RunResult) (stop : Limit) :
    result.stopError stop =
      if stop.room < result.earlyLength then .unserialized stop.cause
      else .unwritten stop.cause := by
  unfold stopError earlyLength
  cases result.destination with
  | file place => simp
  | standardOutput => simp [mem_drop_iff_lt_length_dropWhile]

theorem bytes_ne_nil (result : RunResult) : result.bytes ≠ [] := by
  rw [bytes, text, Utf8.bytes_append]
  exact List.append_ne_nil_of_right_ne_nil _ (by decide)

theorem earlyLength_of_file {place : List String} (h : result.destination = .file place) :
    result.earlyLength = (Utf8.bytes result.report.pretty).length := by
  rw [earlyLength, h]

theorem write_of_hasRoom (h : HasRoom limit result.bytes) :
    (result.write limit).1.taken = result.bytes ∧ (result.write limit).2 = .ok () := by
  rw [← whole_pieces] at h ⊢
  rw [write, Medium.giveAll_of_hasRoom h]
  exact ⟨rfl, rfl⟩

theorem write_of_lt (hlimit : limit = some stop) (h : stop.room < result.bytes.length) :
    (result.write limit).1.taken = result.bytes.take stop.room ∧
      (result.write limit).2 = .error (result.stopError stop) := by
  rw [← whole_pieces] at h
  have hmedium : (Medium.fresh limit).limit = some stop := hlimit
  obtain ⟨htaken, before, piece, after, hpieces, hbefore, hpiece, hending⟩ :=
    Medium.giveAll_of_lt hmedium h
  rw [whole_pieces] at h htaken
  refine ⟨htaken, hending.trans ?_⟩
  -- the piece that fails is the first one or the second one
  rcases List.cons_eq_append_iff.1 hpieces with ⟨rfl, hfirst⟩ | ⟨others, rfl, hsecond⟩
  · obtain ⟨rfl, -⟩ := List.cons.inj hfirst
    have hearly : stop.room < result.earlyLength := by
      simp only [Piece.whole, List.flatMap_nil, List.length_nil, List.length_take] at hpiece
      omega
    rw [stopError_eq_ite, if_pos hearly]
  · have hearly : ¬ stop.room < result.earlyLength := by
      simp only [Piece.whole, List.flatMap_cons, List.length_append, List.length_take] at hbefore
      omega
    have hlast : piece.explain = .unwritten := by
      rcases List.cons_eq_append_iff.1 hsecond with ⟨rfl, hlast⟩ | ⟨more, rfl, hnone⟩
      · exact congrArg Piece.explain (List.cons.inj hlast).1
      · simp at hnone
    rw [stopError_eq_ite, if_neg hearly, hlast]

/-- Four bytes leave room for this report, but not for the end of its line. -/
example : (write ⟨.null, .file ["report"], ⟨0, 0, 0, 0⟩⟩ (some ⟨4, .noSpace⟩)).2 =
    .error (.unwritten .noSpace) := by rfl

end RunResult

end CallRedirect
