import CallRedirect.Json.Reader
import CallRedirect.Proofs.ReadingTokens

/-!
# Values are read locally

A list or an object is read in rounds, one for each item or member, and every round uses up a
character: the first bracket, a comma or a brace.  So lists and objects of steps that are local
are local, and values are by induction on how deep they may nest.

A text that is read as a value is read as the same value where values may nest deeper
(`refines_value`).
-/

namespace CallRedirect.Json

namespace Read

variable {α β σ : Type}

/-! ## Lists -/

/-- Behind a comma an item has to follow. -/
def behindComma : Read Bool := do
  match ← peek? with
  | none => fail .endInValue
  | some c => if c = ']' then fail .trailingComma else return true

theorem nextItem_eq (first : Bool) :
    nextItem first = (do
      match ← peek? with
      | none => fail .endInList
      | some c =>
        if c = ']' then advance >>= fun _ => return false
        else if first then return true
        else if c = ',' then advance >>= fun _ => behindComma
        else fail .expectedListEnd) := by
  refine congrArg (peek? >>= ·) (funext fun head => ?_)
  split
  · rfl
  · rfl
  · next c hclose =>
      simp only [if_neg fun h => hclose h]
      split
      · rfl
      · split
        · refine congrArg (advance >>= ·) (funext fun _ => congrArg (peek? >>= ·)
            (funext fun head => ?_))
          split <;> simp_all
        · rfl

theorem local_behindComma : Local behindComma := by
  refine local_peek (fun _ _ => nofun) fun c tail => ?_
  show LocalAt (if c = ']' then _ else _) _
  split
  · exact localAt_fail _ _
  · exact localAt_pure true _

theorem local_nextItem (first : Bool) : Local (nextItem first) := by
  rw [nextItem_eq]
  refine local_peek (fun _ _ => nofun) fun c tail => ?_
  show LocalAt (if c = ']' then _ else _) _
  split
  · exact localAt_advance_bind _ (localAt_pure false tail)
  · split
    · exact localAt_pure true _
    · split
      · exact localAt_advance_bind _ (local_behindComma tail)
      · exact localAt_fail _ _

theorem behindComma_eq_ok_iff {text rest : List Char} {more : Bool} :
    behindComma text = .ok (more, rest) ↔
      more = true ∧ text.dropWhile isBlank = rest ∧ ∃ c tail, rest = c :: tail ∧ c ≠ ']' := by
  rw [behindComma, peek?_bind_eq_ok_iff (by exact fun _ _ => nofun)]
  constructor
  · rintro ⟨c, tail, hrest, h⟩
    by_cases hclose : c = ']'
    · simp only [if_pos hclose] at h
      cases h
    · simp only [if_neg hclose] at h
      cases h
      exact ⟨rfl, hrest, c, tail, rfl, hclose⟩
  · rintro ⟨rfl, hrest, c, tail, rfl, hclose⟩
    refine ⟨c, tail, hrest, ?_⟩
    simp only [if_neg hclose]
    rfl

/-- There is an item more, or the closing bracket has been used up.  The first item has no comma in
front of it, and each of the others has one. -/
theorem nextItem_eq_ok_iff {first : Bool} {text rest : List Char} {more : Bool} :
    nextItem first text = .ok (more, rest) ↔
      ∃ c tail, text.dropWhile isBlank = c :: tail ∧
        (c = ']' ∧ more = false ∧ rest = tail ∨
          c ≠ ']' ∧ first = true ∧ more = true ∧ rest = c :: tail ∨
          c = ',' ∧ first = false ∧ behindComma tail = .ok (more, rest)) := by
  rw [nextItem_eq, peek?_bind_eq_ok_iff (by exact fun _ _ => nofun)]
  refine exists_congr fun c => exists_congr fun tail => and_congr_right fun _ => ?_
  show (if c = ']' then _ else _ : Read Bool) _ = _ ↔ _
  by_cases hclose : c = ']'
  · rw [if_pos hclose]
    constructor
    · intro h
      cases h
      exact .inl ⟨hclose, rfl, rfl⟩
    · rintro (⟨-, rfl, rfl⟩ | ⟨hc, -⟩ | ⟨hc, -⟩)
      · rfl
      · exact absurd hclose hc
      · exact absurd (hc.symm.trans hclose) (by decide)
  · rw [if_neg hclose]
    cases first with
    | true =>
        constructor
        · intro h
          cases h
          exact .inr (.inl ⟨hclose, rfl, rfl, rfl⟩)
        · rintro (⟨hc, -⟩ | ⟨-, -, rfl, rfl⟩ | ⟨-, hfirst, -⟩)
          · exact absurd hc hclose
          · rfl
          · cases hfirst
    | false =>
        rw [if_neg Bool.false_ne_true]
        constructor
        · intro h
          split at h
          case isTrue hcomma => exact .inr (.inr ⟨hcomma, rfl, h⟩)
          case isFalse => cases h
        · rintro (⟨hc, -⟩ | ⟨-, hfirst, -⟩ | ⟨hcomma, -, h⟩)
          · exact absurd hc hclose
          · cases hfirst
          · rw [if_pos hcomma]
            exact h

/-- Going on behind an item uses up a comma or the closing bracket. -/
theorem progresses_nextItem : Progresses (nextItem false) := by
  rw [nextItem_eq]
  refine progresses_peek (fun _ _ => nofun) fun c tail more rest h => ?_
  simp only [Bool.false_eq_true, if_false] at h
  split at h
  · cases h
    exact Nat.le_refl _
  · split at h
    · exact local_behindComma.length_le h
    · cases h

/-- One round of a list: an item, or the closing bracket. -/
def itemRound (item : Read α) (first : Bool) : Read (Round Unit (List α)) := do
  if ← nextItem first then do
    let head ← item
    return .more () (head :: ·)
  else return .stop []

theorem items_succ (item : Read α) (first : Bool) (fuel : Nat) :
    items item first (fuel + 1) =
      itemRound item first >>= Round.follow (fun _ => items item false fuel) := by
  rw [items, itemRound, bind_assoc]
  refine congrArg (nextItem first >>= ·) (funext fun more => ?_)
  cases more with
  | false => rfl
  | true =>
      rw [if_pos rfl, if_pos rfl, bind_assoc]
      rfl

theorem local_itemRound {item : Read α} (hitem : Local item) (first : Bool) :
    Local (itemRound item first) := by
  refine (local_nextItem first).bind fun more => ?_
  cases more with
  | false => exact local_pure _
  | true => exact hitem.bind fun head => local_pure _

theorem progresses_itemRound {item : Read α} (hitem : Local item) :
    Progresses (itemRound item false) := by
  refine progresses_nextItem.bind fun more => ?_
  cases more with
  | false => exact local_pure _
  | true => exact hitem.bind fun head => local_pure _

theorem boundedRounds_items {item : Read α} (hitem : Local item) (fuel : Nat) :
    BoundedRounds (items item false) fuel :=
  boundedRounds_of_progress (fun _ => itemRound item false)
    (fun fuel _ => items item false fuel) (fun _ _ _ _ => nofun)
    (fun fuel _ => items_succ item false fuel) (fun _ => local_itemRound hitem false)
    (fun _ => progresses_itemRound hitem) fuel ()

/-- A list without its opening bracket is read locally.  Its first round may use up nothing, so
the list has fuel for one round more than characters. -/
theorem local_list {item : Read α} (hitem : Local item) : Local (list item) := by
  intro text value rest h
  have hitems : items item true (text.length + 1) text = .ok (value, rest) := h
  rw [items_succ] at hitems
  obtain ⟨result, middle, hround, hfollow⟩ := bind_apply_eq_ok_iff.1 hitems
  obtain ⟨usedHere, rfl, htakesHere⟩ := local_itemRound hitem true text result middle hround
  obtain ⟨used, rfl, htakes⟩ := BoundedRounds.follow
    (fun _ => boundedRounds_items hitem _) result middle value rest hfollow
  refine ⟨usedHere ++ used, (List.append_assoc ..).symm, fun other hother => ?_⟩
  show items item true ((usedHere ++ used ++ other).length + 1) _ = _
  rw [items_succ]
  refine htakesHere.bind (htakes _ ?_) other hother
  rw [List.length_append, List.length_append]
  omega

/-! ## Objects -/

theorem localAt_key (tail : List Char) : LocalAt nextKey.key ('"' :: tail) :=
  localAt_advance_bind _ ((local_stringBody tail).bind fun name middle _ =>
    localAt_pure (some name) middle)

/-- Behind a comma a key has to follow. -/
def keyBehindComma : Read (Option String) := do
  match ← peek? with
  | none => fail .endInValue
  | some c =>
    if c = '"' then nextKey.key
    else if c = '\x7d' then fail .trailingComma
    else fail .keyNotString

theorem nextKey_eq (first : Bool) :
    nextKey first = (do
      match ← peek? with
      | none => fail .endInObject
      | some c =>
        if c = '\x7d' then advance >>= fun _ => return none
        else if c = ',' then
          if first then fail .keyNotString else advance >>= fun _ => keyBehindComma
        else if c = '"' then
          if first then nextKey.key else fail .expectedObjectEnd
        else fail (if first then .keyNotString else .expectedObjectEnd)) := by
  refine congrArg (peek? >>= ·) (funext fun head => ?_)
  split
  · rfl
  · rfl
  · cases first with
    | true => rfl
    | false =>
        refine congrArg (advance >>= ·) (funext fun _ => congrArg (peek? >>= ·)
          (funext fun head => ?_))
        split <;> simp_all
  · rfl
  · next c hbrace hcomma hquote =>
      have hc : c ≠ '\x7d' ∧ c ≠ ',' ∧ c ≠ '"' :=
        ⟨fun h => hbrace (h ▸ rfl), fun h => hcomma (h ▸ rfl), fun h => hquote (h ▸ rfl)⟩
      simp only [hc, if_false]
      cases first <;> rfl

theorem local_keyBehindComma : Local keyBehindComma := by
  refine local_peek (fun _ _ => nofun) fun c tail => ?_
  show LocalAt (if c = '"' then _ else _) _
  split
  case isTrue hquote =>
    rw [hquote]
    exact localAt_key tail
  case isFalse =>
    split
    · exact localAt_fail _ _
    · exact localAt_fail _ _

theorem local_nextKey (first : Bool) : Local (nextKey first) := by
  rw [nextKey_eq]
  refine local_peek (fun _ _ => nofun) fun c tail => ?_
  show LocalAt (if c = '\x7d' then _ else _) _
  split
  · exact localAt_advance_bind _ (localAt_pure none tail)
  · split
    · split
      · exact localAt_fail _ _
      · exact localAt_advance_bind _ (local_keyBehindComma tail)
    · split
      case isTrue hquote =>
        split
        · rw [hquote]
          exact localAt_key tail
        · exact localAt_fail _ _
      case isFalse => exact localAt_fail _ _

/-- Going on to a key uses up its quote, and finding none uses up the closing brace. -/
theorem progresses_nextKey (first : Bool) : Progresses (nextKey first) := by
  rw [nextKey_eq]
  refine progresses_peek (fun _ _ => nofun) fun c tail key rest h => ?_
  have hkey : ∀ {c tail rest key}, nextKey.key (c :: tail) = .ok (key, rest) →
      rest.length ≤ tail.length := by
    intro c tail rest key h
    exact Local.length_le (local_stringBody.bind fun name => local_pure (some name)) h
  simp only at h
  split at h
  · cases h
    exact Nat.le_refl _
  · split at h
    · split at h
      · cases h
      · exact local_keyBehindComma.length_le h
    · split at h
      · split at h
        · exact hkey h
        · cases h
      · cases h

/-- One round of an object: a member, or the closing brace. -/
def memberRound (member : String → σ → Read σ) (first : Bool) (state : σ) :
    Read (Round (Bool × σ) σ) := do
  match ← nextKey first with
  | none => return .stop state
  | some key => do
      let state ← member key state
      return .more (false, state) id

theorem members_succ (member : String → σ → Read σ) (first : Bool) (state : σ) (fuel : Nat) :
    members member first state (fuel + 1) =
      memberRound member first state >>=
        Round.follow (fun state => members member state.1 state.2 fuel) := by
  rw [members, memberRound, bind_assoc]
  refine congrArg (nextKey first >>= ·) (funext fun key => ?_)
  cases key with
  | none => rfl
  | some key =>
      show _ = (member key state >>= fun state => pure (Round.more (false, state) id)) >>= _
      rw [bind_assoc]
      exact congrArg (member key state >>= ·) (funext fun state => (bind_pure _).symm)

theorem local_memberRound {member : String → σ → Read σ}
    (hmember : ∀ key state, Local (member key state)) (first : Bool) (state : σ) :
    Local (memberRound member first state) := by
  refine (local_nextKey first).bind fun key => ?_
  cases key with
  | none => exact local_pure _
  | some key => exact (hmember key state).bind fun state => local_pure _

theorem progresses_memberRound {member : String → σ → Read σ}
    (hmember : ∀ key state, Local (member key state)) (first : Bool) (state : σ) :
    Progresses (memberRound member first state) := by
  refine (progresses_nextKey first).bind fun key => ?_
  cases key with
  | none => exact local_pure _
  | some key => exact (hmember key state).bind fun state => local_pure _

theorem boundedRounds_members {member : String → σ → Read σ}
    (hmember : ∀ key state, Local (member key state)) (fuel : Nat) (first : Bool) (state : σ) :
    BoundedRounds (members member first state) fuel :=
  boundedRounds_of_progress (fun state => memberRound member state.1 state.2)
    (fun fuel state => members member state.1 state.2 fuel) (fun _ _ _ _ => nofun)
    (fun fuel state => members_succ member state.1 state.2 fuel)
    (fun state => local_memberRound hmember state.1 state.2)
    (fun state => progresses_memberRound hmember state.1 state.2) fuel (first, state)

theorem local_object {member : String → σ → Read σ}
    (hmember : ∀ key state, Local (member key state)) (start : σ) :
    Local (object member start) := by
  intro text value rest h
  obtain ⟨used, rfl, htakes⟩ := boundedRounds_members hmember _ true start text value rest h
  refine ⟨used, rfl, fun other hother => htakes ((used ++ other).length + 1) ?_ other hother⟩
  rw [List.length_append]
  omega

/-! ## Values -/

theorem local_colon : Local colon := by
  refine local_peek (fun _ _ => nofun) fun c tail => ?_
  split
  · nofun
  · exact localAt_advance _ tail
  · exact localAt_fail _ _

theorem local_valueMember {inner : Read Value} (hinner : Local inner) (key : String)
    (sorted : List (String × Value)) : Local (valueMember inner key sorted) :=
  local_colon.bind fun _ => hinner.bind fun content => local_pure (insertMember key content sorted)

theorem local_valueWith {inner : Option (Read Value)} (hinner : ∀ step ∈ inner, Local step) :
    Local (valueWith inner) := by
  refine local_peek (fun _ _ => nofun) fun c tail => ?_
  split
  · nofun
  · exact (local_word _ _).bind fun _ middle _ => localAt_pure _ middle
  · exact (local_word _ _).bind fun _ middle _ => localAt_pure _ middle
  · exact (local_word _ _).bind fun _ middle _ => localAt_pure _ middle
  · exact localAt_advance_bind _ ((local_stringBody tail).bind fun _ middle _ =>
      localAt_pure _ middle)
  · cases inner with
    | none => exact localAt_fail _ _
    | some step =>
        exact localAt_advance_bind _ ((local_list (hinner step rfl) tail).bind
          fun _ middle _ => localAt_pure _ middle)
  · cases inner with
    | none => exact localAt_fail _ _
    | some step =>
        have hmember := local_valueMember (hinner step rfl)
        exact localAt_advance_bind _ ((local_object hmember [] tail).bind
          fun _ middle _ => localAt_pure _ middle)
  · split
    · exact (local_number _).bind fun _ middle _ => localAt_pure _ middle
    · exact localAt_fail _ _

/-- A value is read locally, however deep arrays and objects may nest in it. -/
theorem local_value (depth : Nat) : Local (value depth) := by
  -- the step for nested values is a parameter of `valueWith`, and is local by the hypothesis
  induction depth with
  | zero => exact local_valueWith nofun
  | succ depth ih =>
      refine local_valueWith fun step hstep => ?_
      cases hstep
      exact ih

/-! ## Nesting -/

/-- A step reads all that another one reads, and the same way. -/
def Refines (step other : Read α) : Prop :=
  ∀ text value rest, step text = .ok (value, rest) → other text = .ok (value, rest)

theorem Refines.refl (step : Read α) : Refines step step := fun _ _ _ h => h

theorem Refines.bind {step step' : Read α} {next next' : α → Read β} (hstep : Refines step step')
    (hnext : ∀ first, Refines (next first) (next' first)) :
    Refines (step >>= next) (step' >>= next') := by
  intro text value rest h
  obtain ⟨first, middle, hfirst, hvalue⟩ := bind_apply_eq_ok_iff.1 h
  exact bind_apply_eq_ok_iff.2 ⟨first, middle, hstep text first middle hfirst,
    hnext first middle value rest hvalue⟩

theorem refines_items {item item' : Read α} (hitem : Refines item item') (first : Bool)
    (fuel : Nat) : Refines (items item first fuel) (items item' first fuel) := by
  induction fuel generalizing first with
  | zero => exact Refines.refl _
  | succ fuel ih =>
      refine Refines.bind (Refines.refl _) fun more => ?_
      cases more with
      | false => exact Refines.refl _
      | true => exact hitem.bind fun head => (ih false).bind fun others => Refines.refl _

theorem refines_members {member member' : String → σ → Read σ}
    (hmember : ∀ key state, Refines (member key state) (member' key state)) (first : Bool)
    (state : σ) (fuel : Nat) :
    Refines (members member first state fuel) (members member' first state fuel) := by
  induction fuel generalizing first state with
  | zero => exact Refines.refl _
  | succ fuel ih =>
      refine Refines.bind (Refines.refl _) fun key => ?_
      cases key with
      | none => exact Refines.refl _
      | some key => exact (hmember key state).bind fun state => ih false state

theorem refines_valueWith {inner inner' : Option (Read Value)}
    (hinner : ∀ step ∈ inner, ∃ step', inner' = some step' ∧ Refines step step') :
    Refines (valueWith inner) (valueWith inner') := by
  refine Refines.bind (Refines.refl _) fun head => ?_
  split
  · exact Refines.refl _
  · exact Refines.refl _
  · exact Refines.refl _
  · exact Refines.refl _
  · exact Refines.refl _
  · cases inner with
    | none => exact fun _ _ _ => nofun
    | some step =>
        obtain ⟨step', rfl, hstep⟩ := hinner step rfl
        refine Refines.bind (Refines.refl _) fun _ => Refines.bind ?_ fun _ => Refines.refl _
        exact fun text => refines_items hstep true _ text
  · cases inner with
    | none => exact fun _ _ _ => nofun
    | some step =>
        obtain ⟨step', rfl, hstep⟩ := hinner step rfl
        refine Refines.bind (Refines.refl _) fun _ => Refines.bind ?_ fun _ => Refines.refl _
        exact fun text => refines_members (fun key sorted => Refines.bind (Refines.refl _) fun _ =>
          hstep.bind fun _ => Refines.refl _) true [] _ text
  · exact Refines.refl _

theorem refines_value_succ (depth : Nat) : Refines (value depth) (value (depth + 1)) := by
  induction depth with
  | zero => exact refines_valueWith nofun
  | succ depth ih =>
      refine refines_valueWith fun step hstep => ?_
      cases hstep
      exact ⟨_, rfl, ih⟩

/-- What is read as a value is read as the same value where arrays and objects may nest deeper. -/
theorem refines_value {depth depth' : Nat} (h : depth ≤ depth') :
    Refines (value depth) (value depth') := by
  induction h with
  | refl => exact Refines.refl _
  | step _ ih =>
      exact fun text value rest h => refines_value_succ _ text value rest (ih text value rest h)

end Read

/-- A text is read as a whole if a step reads it and leaves nothing but blanks. -/
theorem readAll_eq_ok_iff {α : Type} {step : Read α} {text : String} {value : α} :
    readAll step text = .ok value ↔
      ∃ rest, step text.toList = .ok (value, rest) ∧ rest.dropWhile isBlank = [] := by
  unfold readAll
  rw [bind_eq_ok_iff]
  constructor
  · rintro ⟨⟨found, rest⟩, hstep, h⟩
    by_cases hrest : rest.dropWhile isBlank = []
    · simp only [if_pos hrest] at h
      cases h
      exact ⟨rest, hstep, hrest⟩
    · simp only [if_neg hrest] at h
      cases h
  · rintro ⟨rest, hstep, hrest⟩
    exact ⟨(value, rest), hstep, if_pos hrest⟩

theorem readAll_of_refines {α : Type} {step other : Read α} (h : Read.Refines step other)
    {text : String} {value : α} (htext : readAll step text = .ok value) :
    readAll other text = .ok value := by
  obtain ⟨rest, hstep, hrest⟩ := readAll_eq_ok_iff.1 htext
  exact readAll_eq_ok_iff.2 ⟨rest, h _ _ _ hstep, hrest⟩

end CallRedirect.Json
