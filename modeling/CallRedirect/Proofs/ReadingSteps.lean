import CallRedirect.Json.Lexical
import CallRedirect.Proofs.Outcome

/-!
# What a reading step looks at

A reading step uses up the front of a text.  What it gives depends on that front, and on nothing
behind it but whether the front ends there: behind `12` the next character decides whether the
number goes on.

* `Continues rest other` says that `other` may stand where `rest` stood.
* `Read.LocalAt step text` says that a step that succeeds on a text gives the same value in front
  of everything that may stand where it stopped.

The property holds of all steps that read words, strings and numbers.  It is kept by the ways in
which steps are put together, so no step that is made of these needs an induction of its own.
-/

namespace CallRedirect.Json

/-- The characters in front of which a value may end. -/
def valueEnds : List Char := [' ', '\n', '\t', '\r', ',', ']', '\x7d']

/-- A text may stand where another one stood if it starts with the same character.  Where nothing
stood, it has to start with a character in front of which a value may end. -/
def Continues : List Char → List Char → Prop
  | [], other => ∀ c, other.head? = some c → c ∈ valueEnds
  | c :: _, other => other.head? = some c

/-- A test of the first character that fails where a value may end. -/
def FailsAtEnds (test : Option Char → Prop) : Prop :=
  ∀ head ∈ none :: valueEnds.map some, ¬ test head

instance (test : Option Char → Prop) [DecidablePred test] : Decidable (FailsAtEnds test) :=
  List.decidableBAll _ _

namespace Continues

variable {rest other : List Char}

theorem refl (rest : List Char) : Continues rest rest := by
  cases rest with
  | nil => exact fun _ => nofun
  | cons c tail => rfl

theorem append (h : Continues rest other) (used : List Char) :
    Continues (used ++ rest) (used ++ other) := by
  cases used with
  | nil => exact h
  | cons c used => rfl

/-- A test of the first character that fails where a value may end gives the same on both. -/
theorem head_iff (h : Continues rest other) {test : Option Char → Prop} (htest : FailsAtEnds test) :
    test other.head? ↔ test rest.head? := by
  cases rest with
  | cons c tail => rw [show other.head? = some c from h, List.head?_cons]
  | nil =>
      refine iff_of_false (htest other.head? ?_) (htest none List.mem_cons_self)
      cases other with
      | nil => exact List.mem_cons_self
      | cons c tail => exact List.mem_cons_of_mem _ (List.mem_map_of_mem (h c rfl))

end Continues

namespace Read

variable {α β : Type}

/-- A step uses up exactly `used`, with this value, in front of all that may stand where `rest`
stands. -/
def Takes (step : Read α) (used : List Char) (value : α) (rest : List Char) : Prop :=
  ∀ other, Continues rest other → step (used ++ other) = .ok (value, other)

/-- If a step succeeds on a text, its value depends only on the part that it uses up and on what
may follow there. -/
def LocalAt (step : Read α) (text : List Char) : Prop :=
  ∀ value rest, step text = .ok (value, rest) →
    ∃ used, text = used ++ rest ∧ Takes step used value rest

/-- A step that is local on every text. -/
def Local (step : Read α) : Prop := ∀ text, LocalAt step text

/-! ## Ways of putting steps together -/

theorem bind_apply_eq_ok_iff {step : Read α} {next : α → Read β} {text rest : List Char}
    {value : β} :
    (step >>= next) text = .ok (value, rest) ↔
      ∃ first middle, step text = .ok (first, middle) ∧ next first middle = .ok (value, rest) := by
  show (step text >>= fun result => next result.1 result.2) = _ ↔ _
  rw [bind_eq_ok_iff]
  exact ⟨fun ⟨⟨first, middle⟩, hfirst, hnext⟩ => ⟨first, middle, hfirst, hnext⟩,
    fun ⟨first, middle, hfirst, hnext⟩ => ⟨(first, middle), hfirst, hnext⟩⟩

theorem localAt_pure (value : α) (text : List Char) : LocalAt (pure value : Read α) text := by
  intro given rest h
  cases h
  exact ⟨[], rfl, fun _ _ => rfl⟩

/-- A step that does not succeed is local. -/
theorem localAt_of_ne_ok {step : Read α} {text : List Char}
    (h : ∀ value rest, step text ≠ .ok (value, rest)) : LocalAt step text :=
  fun value rest hok => absurd hok (h value rest)

theorem localAt_fail (cause : ReadError) (text : List Char) :
    LocalAt (fail cause : Read α) text :=
  localAt_of_ne_ok fun _ _ => nofun

theorem Takes.bind {step : Read α} {next : α → Read β} {used usedNext rest : List Char}
    {first : α} {value : β} (hstep : Takes step used first (usedNext ++ rest))
    (hnext : Takes (next first) usedNext value rest) :
    Takes (step >>= next) (used ++ usedNext) value rest := by
  intro other hother
  rw [List.append_assoc]
  exact bind_apply_eq_ok_iff.2 ⟨_, _, hstep _ (hother.append usedNext), hnext other hother⟩

theorem LocalAt.bind {step : Read α} {next : α → Read β} {text : List Char}
    (hstep : LocalAt step text)
    (hnext : ∀ first middle, step text = .ok (first, middle) → LocalAt (next first) middle) :
    LocalAt (step >>= next) text := by
  intro value rest h
  obtain ⟨first, middle, hfirst, hvalue⟩ := bind_apply_eq_ok_iff.1 h
  obtain ⟨used, rfl, htakes⟩ := hstep first middle hfirst
  obtain ⟨usedNext, rfl, htakesNext⟩ := hnext first middle hfirst value rest hvalue
  exact ⟨used ++ usedNext, (List.append_assoc ..).symm, htakes.bind htakesNext⟩

theorem Local.bind {step : Read α} {next : α → Read β} (hstep : Local step)
    (hnext : ∀ first, Local (next first)) : Local (step >>= next) :=
  fun text => (hstep text).bind fun first middle _ => hnext first middle

theorem local_pure (value : α) : Local (pure value : Read α) := localAt_pure value

theorem local_fail (cause : ReadError) : Local (fail cause : Read α) := localAt_fail cause

/-- Go by a test of the first character. -/
def onFirst (test : Option Char → Prop) [DecidablePred test] (lead plain : Read α) : Read α :=
  fun text => if test text.head? then lead text else plain text

theorem onFirst_pos {test : Option Char → Prop} [DecidablePred test] {lead plain : Read α}
    {text : List Char} (h : test text.head?) : onFirst test lead plain text = lead text := if_pos h

theorem onFirst_neg {test : Option Char → Prop} [DecidablePred test] {lead plain : Read α}
    {text : List Char} (h : ¬ test text.head?) : onFirst test lead plain text = plain text :=
  if_neg h

/-- A step may go by a test of the first character that fails where a value may end. -/
theorem local_onFirst {test : Option Char → Prop} [DecidablePred test] {lead plain : Read α}
    (htest : FailsAtEnds test) (hlead : ∀ c tail, test (some c) → LocalAt lead (c :: tail))
    (hplain : Local plain) : Local (onFirst test lead plain) := by
  intro text value rest hok
  by_cases hfirst : test text.head?
  · rw [onFirst_pos hfirst] at hok
    obtain ⟨used, rfl, htakes⟩ : ∃ used, text = used ++ rest ∧ Takes lead used value rest := by
      cases text with
      | nil => exact absurd hfirst (htest none List.mem_cons_self)
      | cons c tail => exact hlead c tail hfirst value rest hok
    refine ⟨used, rfl, fun other hother => ?_⟩
    rw [onFirst_pos (((hother.append used).head_iff htest).2 hfirst)]
    exact htakes other hother
  · rw [onFirst_neg hfirst] at hok
    obtain ⟨used, rfl, htakes⟩ := hplain text value rest hok
    refine ⟨used, rfl, fun other hother => ?_⟩
    rw [onFirst_neg (mt ((hother.append used).head_iff htest).1 hfirst)]
    exact htakes other hother

/-- A step that goes on with another one behind some characters. -/
theorem localAt_append {step next : Read α} (taken : List Char) {tail : List Char}
    (hstep : ∀ tail, step (taken ++ tail) = next tail) (h : LocalAt next tail) :
    LocalAt step (taken ++ tail) := by
  intro value rest hok
  rw [hstep] at hok
  obtain ⟨used, rfl, htakes⟩ := h value rest hok
  refine ⟨taken ++ used, (List.append_assoc ..).symm, fun other hother => ?_⟩
  rw [List.append_assoc, hstep]
  exact htakes other hother

theorem localAt_advance_bind {next : Read α} {tail : List Char} (c : Char)
    (h : LocalAt next tail) : LocalAt (advance >>= fun _ => next) (c :: tail) :=
  localAt_append [c] (fun _ => rfl) h

theorem localAt_advance (c : Char) (tail : List Char) : LocalAt advance (c :: tail) :=
  localAt_append [c] (fun _ => rfl) (localAt_pure () tail)

/-- A text is made of blanks and what stands behind them. -/
theorem exists_blanks (text : List Char) :
    ∃ blanks, text = blanks ++ text.dropWhile isBlank ∧
      ∀ other, (blanks ++ other).dropWhile isBlank = other.dropWhile isBlank :=
  ⟨text.takeWhile isBlank, List.takeWhile_append_dropWhile.symm, fun _ =>
    List.dropWhile_append_of_pos (List.all_eq_true.1 List.all_takeWhile)⟩

theorem dropWhile_isBlank_cons {text : List Char} {c : Char} {tail : List Char}
    (h : text.dropWhile isBlank = c :: tail) (other : List Char) :
    (c :: other).dropWhile isBlank = c :: other := by
  have hfirst := List.head?_dropWhile_not isBlank text
  rw [h] at hfirst
  exact List.dropWhile_cons_of_neg (by simpa using hfirst)

theorem peek?_bind (next : Option Char → Read α) (text : List Char) :
    (peek? >>= next) text = next (text.dropWhile isBlank).head? (text.dropWhile isBlank) := rfl

/-- A step that goes by the first character that is not blank succeeds only if there is one. -/
theorem peek?_bind_eq_ok_iff {next : Option Char → Read α} {text rest : List Char} {value : α}
    (hnone : ∀ value rest, next none [] ≠ .ok (value, rest)) :
    (peek? >>= next) text = .ok (value, rest) ↔
      ∃ c tail, text.dropWhile isBlank = c :: tail ∧
        next (some c) (c :: tail) = .ok (value, rest) := by
  rw [peek?_bind]
  cases text.dropWhile isBlank with
  | nil => exact ⟨fun h => absurd h (hnone value rest), nofun⟩
  | cons c tail =>
      constructor
      · exact fun h => ⟨c, tail, rfl, h⟩
      · rintro ⟨_, _, hsame, h⟩
        cases hsame
        exact h

/-- A step that knows one character goes on there, and with something else everywhere else. -/
theorem peek?_ite_eq_ok_iff {c : Char} {lead : Read α} {next : Option Char → Read α}
    {text rest : List Char} {value : α} :
    (peek? >>= fun head => if head = some c then lead else next head) text = .ok (value, rest) ↔
      (∃ tail, text.dropWhile isBlank = c :: tail ∧ lead (c :: tail) = .ok (value, rest)) ∨
        (text.dropWhile isBlank).head? ≠ some c ∧ (peek? >>= next) text = .ok (value, rest) := by
  rw [peek?_bind, peek?_bind]
  by_cases hc : (text.dropWhile isBlank).head? = some c
  · obtain ⟨tail, htail⟩ := List.head?_eq_some_iff.1 hc
    rw [if_pos hc, htail]
    constructor
    · exact fun h => .inl ⟨tail, rfl, h⟩
    · rintro (⟨_, hsame, h⟩ | ⟨hne, -⟩)
      · cases hsame
        exact h
      · exact absurd rfl hne
  · rw [if_neg hc]
    constructor
    · exact fun h => .inr ⟨hc, h⟩
    · rintro (⟨tail, htail, -⟩ | ⟨-, h⟩)
      · rw [htail] at hc
        exact absurd rfl hc
      · exact h

/-- Blanks in front of what a step uses up make no difference to a step that goes by the first
character behind them. -/
theorem exists_takes_peek {text : List Char} {c : Char} {tail : List Char}
    (h : text.dropWhile isBlank = c :: tail) :
    ∃ blanks, text = blanks ++ c :: tail ∧
      ∀ (next : Option Char → Read α) used value rest, c :: tail = used ++ rest →
        Takes (next (some c)) used value rest →
          Takes (peek? >>= next) (blanks ++ used) value rest := by
  obtain ⟨blanks, htext, hblanks⟩ := exists_blanks text
  rw [h] at htext
  refine ⟨blanks, htext, fun next used value rest hused htakes other hother => ?_⟩
  have hhead := hother.append used
  rw [← hused] at hhead
  obtain ⟨tail', htail⟩ := List.head?_eq_some_iff.1 hhead
  rw [List.append_assoc, peek?_bind, htail, hblanks, dropWhile_isBlank_cons h, List.head?_cons,
    ← htail]
  exact htakes other hother

/-- A step may go by the first character that is not blank, if it fails where there is none. -/
theorem local_peek {next : Option Char → Read α}
    (hnone : ∀ value rest, next none [] ≠ .ok (value, rest))
    (hsome : ∀ c tail, LocalAt (next (some c)) (c :: tail)) : Local (peek? >>= next) := by
  intro text value rest h
  obtain ⟨c, tail, hrest, hnext⟩ := (peek?_bind_eq_ok_iff hnone).1 h
  obtain ⟨blanks, rfl, htakes⟩ := exists_takes_peek (α := α) hrest
  obtain ⟨used, hused, hsome⟩ := hsome c tail value rest hnext
  exact ⟨blanks ++ used, by rw [hused, List.append_assoc], htakes next _ _ _ hused hsome⟩

/-- What is left behind a local step is not longer than the text. -/
theorem Local.length_le {step : Read α} (hstep : Local step) {text rest : List Char} {value : α}
    (h : step text = .ok (value, rest)) : rest.length ≤ text.length := by
  obtain ⟨used, rfl, -⟩ := hstep text value rest h
  rw [List.length_append]
  omega

/-- A step that uses up a character whenever it succeeds. -/
def Progresses (step : Read α) : Prop :=
  ∀ text value rest, step text = .ok (value, rest) → rest.length < text.length

theorem Progresses.length_pos {step : Read α} (h : Progresses step) {used rest : List Char}
    {value : α} (hok : step (used ++ rest) = .ok (value, rest)) : 0 < used.length := by
  have hless := h _ _ _ hok
  rw [List.length_append] at hless
  omega

theorem Progresses.bind {step : Read α} {next : α → Read β} (hstep : Progresses step)
    (hnext : ∀ first, Local (next first)) : Progresses (step >>= next) := by
  intro text value rest h
  obtain ⟨first, middle, hfirst, hvalue⟩ := bind_apply_eq_ok_iff.1 h
  exact Nat.lt_of_le_of_lt ((hnext first).length_le hvalue) (hstep text first middle hfirst)

theorem progresses_peek {next : Option Char → Read α}
    (hnone : ∀ value rest, next none [] ≠ .ok (value, rest))
    (hsome : ∀ c tail value rest, next (some c) (c :: tail) = .ok (value, rest) →
      rest.length ≤ tail.length) : Progresses (peek? >>= next) := by
  intro text value rest h
  obtain ⟨c, tail, hrest, hvalue⟩ := (peek?_bind_eq_ok_iff hnone).1 h
  have hlength : (c :: tail).length ≤ text.length := by
    rw [← hrest]
    exact (List.dropWhile_suffix isBlank).length_le
  exact Nat.lt_of_le_of_lt (hsome c tail value rest hvalue) hlength

/-! ## Steps that go round -/

/-- What one round of a loop comes to: the loop stops with a value, or it goes on from a state and
does something with the value of the rounds that follow. -/
inductive Round (σ α : Type)
  | stop (value : α)
  | more (state : σ) (finish : α → α)

/-- Go on behind a round, with the rounds that follow. -/
def Round.follow {σ : Type} (run : σ → Read α) : Round σ α → Read α
  | stop value => pure value
  | more state finish => do
      let value ← run state
      return finish value

theorem Round.follow_more_id {σ : Type} (run : σ → Read α) (state : σ) :
    (more state id).follow run = run state :=
  bind_pure (run state)

/-- How many rounds of a loop are enough for what it uses up, whatever fuel it had. -/
def BoundedRounds (run : Nat → Read α) (fuel : Nat) : Prop :=
  ∀ text value rest, run fuel text = .ok (value, rest) →
    ∃ used, text = used ++ rest ∧ ∀ fuel', used.length ≤ fuel' →
      Takes (run fuel') used value rest

theorem BoundedRounds.follow {σ : Type} {run : Nat → σ → Read α} {fuel : Nat}
    (hrun : ∀ state, BoundedRounds (run · state) fuel) (result : Round σ α) :
    BoundedRounds (fun fuel => result.follow (run fuel)) fuel := by
  intro text value rest h
  cases result with
  | stop found =>
      cases h
      exact ⟨[], rfl, fun _ _ _ _ => rfl⟩
  | more state finish =>
      obtain ⟨found, middle, hfound, h⟩ := bind_apply_eq_ok_iff.1 h
      cases h
      obtain ⟨used, hused, htakes⟩ := hrun state text found rest hfound
      refine ⟨used, hused, fun fuel' hfuel' => ?_⟩
      rw [← List.append_nil used]
      exact Takes.bind (htakes fuel' hfuel') fun _ _ => rfl

/-- What is read in rounds, each of which uses up a character, depends on the text that is used
up, and as many rounds as it has characters are enough. -/
theorem boundedRounds_of_progress {σ : Type} (round : σ → Read (Round σ α))
    (run : Nat → σ → Read α)
    (hzero : ∀ state text value rest, run 0 state text ≠ .ok (value, rest))
    (hsucc : ∀ fuel state, run (fuel + 1) state = round state >>= Round.follow (run fuel))
    (hlocal : ∀ state, Local (round state)) (hprogress : ∀ state, Progresses (round state))
    (fuel : Nat) (state : σ) : BoundedRounds (run · state) fuel := by
  -- the state is general, since every round leaves another one to the rounds that follow
  induction fuel generalizing state with
  | zero => exact fun text value rest h => absurd h (hzero state text value rest)
  | succ fuel ih =>
      intro text value rest h
      simp only [hsucc] at h
      obtain ⟨result, middle, hround, hfollow⟩ := bind_apply_eq_ok_iff.1 h
      have hless := hprogress state text result middle hround
      obtain ⟨usedHere, rfl, htakesHere⟩ := hlocal state text result middle hround
      rw [List.length_append] at hless
      obtain ⟨used, rfl, htakes⟩ := BoundedRounds.follow ih result middle value rest hfollow
      refine ⟨usedHere ++ used, (List.append_assoc ..).symm, fun fuel' hfuel' => ?_⟩
      -- `usedHere` is not empty, so it pays for this round
      rw [List.length_append] at hfuel'
      obtain ⟨fuel', rfl⟩ := Nat.exists_eq_succ_of_ne_zero (show fuel' ≠ 0 by omega)
      simp only [hsucc]
      exact htakesHere.bind (htakes fuel' (by omega))

end Read

end CallRedirect.Json
