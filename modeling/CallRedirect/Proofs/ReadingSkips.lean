import CallRedirect.Json.Skip
import CallRedirect.Proofs.ReadingValues

/-!
# What is passed over is passed over locally

The step that passes over a value has fuel, of which it takes two for each value inside of
another one.  A value inside of another one stands behind a bracket or a comma, so twice the
length of what is passed over is enough (`localWithin_skip`), and what stands behind it makes no
difference (`local_skip`).
-/

namespace CallRedirect.Json.Read

variable {α β : Type}

/-! ## Passing over tokens -/

theorem skipEscape_cons {c : Char} (hc : c ≠ 'u') (text : List Char) :
    skipEscape (c :: text) =
      match shortEscape? c with
      | some decoded => .ok (decoded, text)
      | none => .error .invalidEscape := by
  unfold skipEscape
  split
  · next heq => cases heq
  · next heq => exact absurd (List.cons.inj heq).1 hc
  · next heq =>
      cases heq
      rfl

theorem local_skipEscape : Local skipEscape := by
  intro text
  cases text with
  | nil => exact localAt_of_ne_ok fun _ _ => nofun
  | cons c tail =>
      by_cases hc : c = 'u'
      · rw [hc]
        exact localAt_append ['u'] (fun _ => rfl)
          ((local_readHex tail).bind fun _ middle _ => localAt_pure 'u' middle)
      · exact localAt_shortEscape c tail (skipEscape_cons hc)

theorem local_skipString : Local skipString :=
  (local_readCharacters local_skipEscape).bind fun _ => local_pure ()

theorem skipDigits_eq_ok_iff {text rest : List Char} {value : Unit} :
    skipDigits text = .ok (value, rest) ↔
      text.head?.any isDigit = true ∧ rest = text.dropWhile isDigit := by
  cases text with
  | nil => exact ⟨nofun, fun h => absurd h.1 Bool.false_ne_true⟩
  | cons c tail =>
      by_cases hc : isDigit c = true
      · rw [skipDigits, if_pos hc, List.dropWhile_cons_of_pos hc, List.head?_cons,
          Option.any_some, and_iff_right hc]
        exact ⟨fun h => by cases h; rfl, fun h => by rw [h]⟩
      · rw [skipDigits, if_neg hc]
        exact ⟨nofun, fun h => absurd h.1 hc⟩

theorem local_skipDigits : Local skipDigits := by
  intro text value rest h
  obtain ⟨hdigit, rfl⟩ := skipDigits_eq_ok_iff.1 h
  refine ⟨text.takeWhile isDigit, List.takeWhile_append_dropWhile.symm, fun other hother => ?_⟩
  have hhead := any_isDigit_head (hother.append (text.takeWhile isDigit))
  rw [List.takeWhile_append_dropWhile, hdigit] at hhead
  exact skipDigits_eq_ok_iff.2 ⟨hhead, (digits_append hother).2.symm⟩

theorem skipExponent_eq_onFirst :
    skipExponent = onFirst (fun head => head = some '+' ∨ head = some '-')
      (advance >>= fun _ => skipDigits) skipDigits := by
  funext text
  unfold onFirst
  show (if _ then _ else _ : Read Unit) text = _
  split <;> rfl

theorem local_skipExponent : Local skipExponent := by
  rw [skipExponent_eq_onFirst]
  exact local_onFirst (by decide)
    (fun c tail _ => localAt_advance_bind c (local_skipDigits tail)) local_skipDigits

theorem skipScale_eq_onFirst :
    skipScale = onFirst (fun head => head = some 'e' ∨ head = some 'E')
      (advance >>= fun _ => skipExponent) (pure ()) := by
  funext text
  unfold onFirst
  show (if _ then _ else _ : Read Unit) text = _
  split <;> rfl

theorem local_skipScale : Local skipScale := by
  rw [skipScale_eq_onFirst]
  exact local_onFirst (by decide)
    (fun c tail _ => localAt_advance_bind c (local_skipExponent tail)) (local_pure ())

theorem get_bind (next : List Char → Read α) (text : List Char) :
    (get >>= next : Read α) text = next text text := rfl

theorem skipInteger_eq_onFirst :
    skipInteger = onFirst (· = some '0')
      (advance >>= fun _ => onFirst (·.any isDigit = true) (fail .invalidNumber) (pure ()))
      skipDigits := by
  funext text
  rw [skipInteger, get_bind]
  split
  · next c tail =>
      show _ = onFirst (·.any isDigit = true) (fail .invalidNumber) (pure ()) (c :: tail)
      by_cases hc : isDigit c = true
      · rw [if_pos hc, onFirst_pos (by exact hc)]
        rfl
      · rw [if_neg hc, onFirst_neg (by exact hc)]
        rfl
  · next hzero =>
      by_cases hhead : text.head? = some '0'
      · obtain ⟨tail, rfl⟩ := List.head?_eq_some_iff.1 hhead
        cases tail with
        | nil => rfl
        | cons c tail => exact absurd rfl (hzero c tail)
      · rw [onFirst_neg hhead]

theorem local_skipInteger : Local skipInteger := by
  rw [skipInteger_eq_onFirst]
  refine local_onFirst (by decide) (fun c tail _ => localAt_advance_bind c ?_)
    local_skipDigits
  exact local_onFirst (by decide) (fun c tail _ => localAt_fail _ _) (local_pure ())
    tail

/-- A step in front of the others that is taken only if the first character calls for it. -/
theorem get_bind_ite (test : Option Char → Prop) [DecidablePred test] (lead : Read Unit)
    (next : Read α) :
    (get >>= fun text => if test text.head? then lead >>= fun _ => next else next : Read α) =
      (onFirst test lead (pure ()) >>= fun _ => next) := by
  funext text
  show (if test text.head? then lead >>= fun _ => next else next : Read α) text =
    onFirst test lead (pure ()) text >>= fun result => next result.2
  by_cases htest : test text.head?
  · rw [if_pos htest, onFirst_pos htest]
    rfl
  · rw [if_neg htest, onFirst_neg htest]
    rfl

theorem skipNumber_eq_onFirst :
    skipNumber = (onFirst (· = some '-') advance (pure ()) >>= fun _ => skipInteger >>= fun _ =>
      onFirst (· = some '.') (advance >>= fun _ => skipDigits) (pure ()) >>= fun _ =>
        skipScale) := by
  rw [← get_bind_ite, ← get_bind_ite]
  rfl

theorem local_skipNumber : Local skipNumber := by
  rw [skipNumber_eq_onFirst]
  refine Local.bind (local_onFirst (by decide) (fun c tail _ => localAt_advance c tail)
    (local_pure ())) fun _ => local_skipInteger.bind fun _ => Local.bind ?_ fun _ => local_skipScale
  exact local_onFirst (by decide)
    (fun c tail _ => localAt_advance_bind c (local_skipDigits tail)) (local_pure ())

theorem local_skipKey : Local skipKey := by
  refine local_peek (fun _ _ => nofun) fun c tail => ?_
  split
  · nofun
  · exact localAt_advance_bind _ ((local_skipString tail).bind fun _ middle _ => local_colon middle)
  · exact localAt_fail _ _

/-! ## Passing over values -/

/-- A step with fuel is local, and `cost` more than twice the length of what is used up is enough
fuel. -/
def LocalWithin (cost : Nat) (run : Nat → Read α) (fuel : Nat) (text : List Char) : Prop :=
  ∀ value rest, run fuel text = .ok (value, rest) →
    ∃ used, text = used ++ rest ∧ ∀ fuel', 2 * used.length + cost ≤ fuel' →
      Takes (run fuel') used value rest

theorem LocalAt.within {step : Read α} {text : List Char} (h : LocalAt step text)
    (cost fuel : Nat) : LocalWithin cost (fun _ => step) fuel text := by
  intro value rest hok
  obtain ⟨used, hused, htakes⟩ := h value rest hok
  exact ⟨used, hused, fun _ _ => htakes⟩

theorem LocalWithin.mono {cost cost' fuel : Nat} {run : Nat → Read α} {text : List Char}
    (h : LocalWithin cost run fuel text) (hcost : cost ≤ cost') :
    LocalWithin cost' run fuel text := by
  intro value rest hok
  obtain ⟨used, hused, htakes⟩ := h value rest hok
  exact ⟨used, hused, fun fuel' hfuel' => htakes fuel' (by omega)⟩

theorem LocalWithin.succ {cost fuel : Nat} {run next : Nat → Read α} {text : List Char}
    (hrun : ∀ fuel, run (fuel + 1) = next fuel) (h : LocalWithin cost next fuel text) :
    LocalWithin (cost + 1) run (fuel + 1) text := by
  intro value rest hok
  rw [hrun] at hok
  obtain ⟨used, hused, htakes⟩ := h value rest hok
  refine ⟨used, hused, fun fuel' hfuel' => ?_⟩
  obtain ⟨fuel', rfl⟩ := Nat.exists_eq_add_of_le' (Nat.one_le_of_lt hfuel')
  rw [hrun]
  exact htakes fuel' (by omega)

theorem LocalWithin.bind {cost fuel : Nat} {step : Nat → Read β} {next : Nat → β → Read α}
    {text : List Char} (hstep : LocalWithin cost step fuel text)
    (hnext : ∀ first middle, LocalWithin cost (next · first) fuel middle) :
    LocalWithin cost (fun fuel => step fuel >>= next fuel) fuel text := by
  intro value rest hok
  obtain ⟨first, middle, hfirst, hvalue⟩ := bind_apply_eq_ok_iff.1 hok
  obtain ⟨used, rfl, htakes⟩ := hstep first middle hfirst
  obtain ⟨usedNext, rfl, htakesNext⟩ := hnext first middle value rest hvalue
  refine ⟨used ++ usedNext, (List.append_assoc ..).symm, fun fuel' hfuel' => ?_⟩
  rw [List.length_append] at hfuel'
  exact (htakes fuel' (by omega)).bind (htakesNext fuel' (by omega))

/-- A character that is used up pays for two units of fuel. -/
theorem LocalWithin.advance {cost fuel : Nat} {next : Nat → Read α} {tail : List Char} (c : Char)
    (h : LocalWithin (cost + 2) next fuel tail) :
    LocalWithin cost (fun fuel => Read.advance >>= fun _ => next fuel) fuel (c :: tail) := by
  intro value rest hok
  obtain ⟨used, rfl, htakes⟩ := h value rest hok
  refine ⟨c :: used, rfl, fun fuel' hfuel' => ?_⟩
  rw [List.length_cons] at hfuel'
  exact htakes fuel' (by omega)

theorem LocalWithin.peek {cost fuel : Nat} {next : Nat → Option Char → Read α} {text : List Char}
    (hnone : ∀ value rest, next fuel none [] ≠ .ok (value, rest))
    (hsome : ∀ c tail, LocalWithin cost (next · (some c)) fuel (c :: tail)) :
    LocalWithin cost (fun fuel => peek? >>= next fuel) fuel text := by
  intro value rest hok
  obtain ⟨c, tail, hrest, hnext⟩ := (peek?_bind_eq_ok_iff hnone).1 hok
  obtain ⟨blanks, rfl, htakes⟩ := exists_takes_peek (α := α) hrest
  obtain ⟨used, hused, hwithin⟩ := hsome c tail value rest hnext
  refine ⟨blanks ++ used, by rw [hused, List.append_assoc], fun fuel' hfuel' => ?_⟩
  rw [List.length_append] at hfuel'
  exact htakes (next fuel') used value rest hused (hwithin fuel' (by omega))

/-- Pass over a value that starts with this character and holds no other values. -/
def skipToken : Char → Read Unit
  | 'n' => word ['n', 'u', 'l', 'l']
  | 't' => word ['t', 'r', 'u', 'e']
  | 'f' => word ['f', 'a', 'l', 's', 'e']
  | '"' => do
      advance
      skipString
  | c => if c = '-' ∨ isDigit c then skipNumber else fail .expectedValue

/-- Pass over the rest of what a bracket opens: nothing, or something in front of its end. -/
def skipInside (close : Char) (cause : ReadError) (inside : Read Unit) : Read Unit := do
  match ← peek? with
  | none => fail cause
  | some c => if c = close then advance else inside

/-- Pass over the rest of what a bracket opens, behind one of the things in it. -/
def skipBehind (close : Char) (cause cause' : ReadError) (others : Read Unit) : Read Unit := do
  match ← peek? with
  | none => fail cause
  | some c =>
    if c = ',' then advance >>= fun _ => others
    else if c = close then advance
    else fail cause'

theorem skipWithin_succ (fuel : Nat) :
    skipWithin (fuel + 1) = (do
      match ← peek? with
      | none => fail .endInValue
      | some c =>
        if c = '[' then advance >>= fun _ => skipInside ']' .endInList (skipItems fuel)
        else if c = '\x7b' then
          advance >>= fun _ => skipInside '\x7d' .endInObject (skipMembers fuel)
        else skipToken c) := by
  rw [skipWithin]
  refine congrArg (peek? >>= ·) (funext fun head => ?_)
  split
  · rfl
  · rfl
  · rfl
  · rfl
  · rfl
  · refine congrArg (advance >>= ·) (funext fun _ => congrArg (peek? >>= ·) (funext fun head => ?_))
    split <;> simp_all
  · refine congrArg (advance >>= ·) (funext fun _ => congrArg (peek? >>= ·) (funext fun head => ?_))
    split <;> simp_all
  · next c hnull htrue hfalse hquote hlist hobject =>
      have hbracket : c ≠ '[' ∧ c ≠ '\x7b' :=
        ⟨fun h => hlist (h ▸ rfl), fun h => hobject (h ▸ rfl)⟩
      simp only [hbracket, if_false]
      unfold skipToken
      split <;> simp_all

theorem skipItems_succ (fuel : Nat) :
    skipItems (fuel + 1) = (skipWithin fuel >>= fun _ =>
      skipBehind ']' .endInList .expectedListEnd (skipItems fuel)) := by
  rw [skipItems]
  refine congrArg (skipWithin fuel >>= ·) (funext fun _ => ?_)
  unfold skipBehind
  refine congrArg (peek? >>= ·) (funext fun head => ?_)
  split <;> simp_all

theorem skipMembers_succ (fuel : Nat) :
    skipMembers (fuel + 1) = (skipKey >>= fun _ => skipWithin fuel >>= fun _ =>
      skipBehind '\x7d' .endInObject .expectedObjectEnd (skipMembers fuel)) := by
  rw [skipMembers]
  refine congrArg (skipKey >>= ·) (funext fun _ => congrArg (skipWithin fuel >>= ·)
    (funext fun _ => ?_))
  unfold skipBehind
  refine congrArg (peek? >>= ·) (funext fun head => ?_)
  split <;> simp_all

theorem localAt_skipToken (c : Char) (tail : List Char) : LocalAt (skipToken c) (c :: tail) := by
  unfold skipToken
  split
  · exact local_word _ _
  · exact local_word _ _
  · exact local_word _ _
  · exact localAt_advance_bind _ (local_skipString tail)
  · split
    · exact local_skipNumber _
    · exact localAt_fail _ _

theorem LocalWithin.skipInside {close : Char} {cause : ReadError} {inside : Nat → Read Unit}
    {cost fuel : Nat} {text : List Char} (h : ∀ text, LocalWithin cost inside fuel text) :
    LocalWithin cost (fun fuel => skipInside close cause (inside fuel)) fuel text := by
  refine LocalWithin.peek (fun _ _ => nofun) fun c tail => ?_
  by_cases hclose : c = close
  · simp only [if_pos hclose]
    exact (localAt_advance c tail).within cost fuel
  · simp only [if_neg hclose]
    exact h (c :: tail)

theorem LocalWithin.skipBehind {close : Char} {cause cause' : ReadError} {others : Nat → Read Unit}
    {cost fuel : Nat} {text : List Char} (h : ∀ text, LocalWithin (cost + 2) others fuel text) :
    LocalWithin cost (fun fuel => skipBehind close cause cause' (others fuel)) fuel text := by
  refine LocalWithin.peek (fun _ _ => nofun) fun c tail => ?_
  by_cases hcomma : c = ','
  · simp only [if_pos hcomma]
    exact LocalWithin.advance c (h tail)
  · by_cases hclose : c = close
    · simp only [if_neg hcomma, if_pos hclose]
      exact (localAt_advance c tail).within cost fuel
    · simp only [if_neg hcomma, if_neg hclose]
      exact (localAt_fail cause' (c :: tail)).within cost fuel

/-- What passes over a nested value has a bracket to pay for it. -/
theorem localWithin_skip (fuel : Nat) :
    (∀ text, LocalWithin 1 skipWithin fuel text) ∧ (∀ text, LocalWithin 2 skipItems fuel text) ∧
      ∀ text, LocalWithin 2 skipMembers fuel text := by
  -- the three steps call each other, so they share one induction on the fuel
  induction fuel with
  | zero => exact ⟨fun _ _ _ => nofun, fun _ _ _ => nofun, fun _ _ _ => nofun⟩
  | succ fuel ih =>
      obtain ⟨hvalue, hitems, hmembers⟩ := ih
      refine ⟨fun text => ?value, fun text => ?items, fun text => ?members⟩
      case value =>
        refine LocalWithin.succ skipWithin_succ
          (LocalWithin.peek (fun _ _ => nofun) fun c tail => ?_)
        by_cases hlist : c = '['
        · -- the bracket is used up and pays for two: this step and the one inside
          simp only [if_pos hlist]
          exact LocalWithin.advance c (LocalWithin.skipInside hitems)
        · by_cases hobject : c = '\x7b'
          · simp only [if_neg hlist, if_pos hobject]
            exact LocalWithin.advance c (LocalWithin.skipInside hmembers)
          · simp only [if_neg hlist, if_neg hobject]
            exact (localAt_skipToken c tail).within 0 fuel
      case items =>
        exact LocalWithin.succ skipItems_succ (LocalWithin.bind (hvalue text) fun _ middle =>
          LocalWithin.skipBehind fun text => (hitems text).mono (by decide))
      case members =>
        exact LocalWithin.succ skipMembers_succ (LocalWithin.bind
          ((local_skipKey text).within 1 fuel) fun _ middle => LocalWithin.bind (hvalue middle)
            fun _ middle => LocalWithin.skipBehind fun text =>
              (hmembers text).mono (by decide))

theorem local_skip : Local skip := by
  intro text value rest h
  obtain ⟨used, rfl, htakes⟩ := (localWithin_skip _).1 text value rest h
  refine ⟨used, rfl, fun other hother => ?_⟩
  show skipWithin (2 * (used ++ other).length + 1) (used ++ other) = _
  refine htakes _ ?_ other hother
  rw [List.length_append]
  omega

end CallRedirect.Json.Read
