import CallRedirect.Proofs.ReadingRecords
import Mathlib.Data.List.DropRight

/-!
# A part of a document in place of another

A document is read as a whole, but what one of its parts says comes into the result at one place
only.

* `Read.Place` says that `inner` reads at one place of the text that a step with fuel reads, and
  that any other text that `inner` reads may stand there: its content goes where the old content
  was (`put`), and all the rest stays as it is.
* A loop comes to the place in one of its rounds.  `Place.here` is this round, and `Place.later`
  is a round in front of it.
* `Read.Part` is a place in a text that a step reads.  An item is a part of its list
  (`part_listOf`), and a part of a part is a part (`Part.trans`).

Blanks in front of an item are used up before it, so the text behind a place is the same only up
to the blanks in front of it.  This is why the steps of a loop are shown to pass over blanks
(`SkipsBlanks`).
-/

namespace CallRedirect.Json.Read

variable {α β γ : Type}

/-! ## Blanks -/

/-- Blanks in front make no difference to a step. -/
def SkipsBlanks (step : Read α) : Prop :=
  ∀ text, step (text.dropWhile isBlank) = step text

/-- Two texts that differ in the blanks in front only. -/
def SameBehindBlanks (text other : List Char) : Prop :=
  text.dropWhile isBlank = other.dropWhile isBlank

/-- A step that reads an item: blanks in front make no difference, and no item starts with a
closing bracket. -/
structure IsItem (step : Read α) : Prop where
  skips : SkipsBlanks step
  opens : ∀ text value rest, step text = .ok (value, rest) →
    ∃ c tail, text.dropWhile isBlank = c :: tail ∧ c ≠ ']'

theorem skipsBlanks_peek (next : Option Char → Read α) : SkipsBlanks (peek? >>= next) := by
  intro text
  rw [peek?_bind, peek?_bind, List.dropWhile_idempotent]

theorem SkipsBlanks.bind {step : Read α} (hstep : SkipsBlanks step) (next : α → Read β) :
    SkipsBlanks (step >>= next) := by
  intro text
  show (step (text.dropWhile isBlank) >>= _) = (step text >>= _)
  rw [hstep text]

theorem isItem_peek {next : Option Char → Read α}
    (hnone : ∀ value rest, next none [] ≠ .ok (value, rest))
    (hclose : ∀ tail value rest, next (some ']') (']' :: tail) ≠ .ok (value, rest)) :
    IsItem (peek? >>= next) where
  skips := skipsBlanks_peek next
  opens text value rest h := by
    obtain ⟨c, tail, hrest, hnext⟩ := (peek?_bind_eq_ok_iff hnone).1 h
    refine ⟨c, tail, hrest, ?_⟩
    rintro rfl
    exact hclose tail value rest hnext

theorem IsItem.bind {step : Read α} (hstep : IsItem step) (next : α → Read β) :
    IsItem (step >>= next) where
  skips := hstep.skips.bind next
  opens text value rest h := by
    obtain ⟨first, middle, hfirst, -⟩ := bind_apply_eq_ok_iff.1 h
    exact hstep.opens text first middle hfirst

theorem SkipsBlanks.eq {step : Read α} (hstep : SkipsBlanks step) {text other : List Char}
    (h : SameBehindBlanks text other) : step text = step other := by
  rw [← hstep text, h, hstep other]

theorem skipsBlanks_nextItem (first : Bool) : SkipsBlanks (nextItem first) := skipsBlanks_peek _

theorem skipsBlanks_nextKey (first : Bool) : SkipsBlanks (nextKey first) := skipsBlanks_peek _

theorem skipsBlanks_items (item : Read α) (first : Bool) (fuel : Nat) :
    SkipsBlanks (items item first fuel) := by
  cases fuel with
  | zero => exact fun _ => rfl
  | succ fuel => exact (skipsBlanks_nextItem first).bind _

theorem skipsBlanks_members {σ : Type} (member : String → σ → Read σ) (first : Bool) (state : σ)
    (fuel : Nat) : SkipsBlanks (members member first state fuel) := by
  cases fuel with
  | zero => exact fun _ => rfl
  | succ fuel => exact (skipsBlanks_nextKey first).bind _

theorem continues_nil_of_dropWhile {text : List Char} {c : Char} {tail : List Char}
    (h : text.dropWhile isBlank = c :: tail) (hc : c ∈ valueEnds) : Continues [] text := by
  intro first hfirst
  obtain ⟨others, rfl⟩ := List.head?_eq_some_iff.1 hfirst
  by_cases hblank : isBlank first = true
  · have hall : ∀ first, isBlank first = true → first ∈ valueEnds := by
      intro first hblank
      simp only [isBlank, Bool.or_eq_true, decide_eq_true_eq] at hblank
      rcases hblank with ((rfl | rfl) | rfl) | rfl <;> decide
    exact hall first hblank
  · rw [List.dropWhile_cons_of_neg hblank] at h
    cases h
    exact hc

theorem continues_append {front : List Char} (hfront : front ≠ []) (text other : List Char) :
    Continues (front ++ text) (front ++ other) := by
  cases front with
  | nil => exact absurd rfl hfront
  | cons c front => rfl

/-! ## Places -/

/-- A step with fuel comes to a place behind `front`, where `inner` reads `content` from `middle`.
Whatever else `inner` reads may stand there, if what follows is the same but for blanks.  The fuel
has to exceed the length of the text by `cost`. -/
def Place (cost : Nat) (outer : Nat → Read α) (inner : Read β) (front middle rest : List Char)
    (content : β) (put : β → α) : Prop :=
  ∃ back, inner middle = .ok (content, back) ∧ Continues [] back ∧
    ∀ other content' back', inner other = .ok (content', back') → SameBehindBlanks back' back →
      ∀ fuel, (front ++ other).length + cost ≤ fuel →
        outer fuel (front ++ other) = .ok (put content', rest)

namespace Place

variable {cost cost' drop : Nat} {run : Nat → Read α} {step : Read γ} {next : γ → Nat → Read α}
  {inner : Read β} {front middle back rest : List Char} {content : β} {put : β → α}

/-- The place is in this round: the round gives `result` of what stands there, and what follows
the round does not depend on blanks and on the fuel that is left. -/
theorem here (hrun : ∀ fuel, run (fuel + drop) = step >>= fun first => next first fuel)
    (hlocal : Local inner) (hinner : inner middle = .ok (content, back))
    (hends : Continues [] back) (result : β → γ)
    (hstep : ∀ other content' back', inner other = .ok (content', back') →
      step (front ++ other) = .ok (result content', back'))
    (hnext : ∀ content' other, SameBehindBlanks other back → ∀ fuel, other.length + cost ≤ fuel →
      next (result content') fuel other = .ok (put content', rest))
    (hcost : cost + drop ≤ front.length + cost') :
    Place cost' run inner front middle rest content put := by
  refine ⟨back, hinner, hends, fun other content' back' hother hback fuel hfuel => ?_⟩
  have hlength := hlocal.length_le hother
  rw [List.length_append] at hfuel
  obtain ⟨fuel, rfl⟩ := Nat.exists_eq_add_of_le' (show drop ≤ fuel by omega)
  rw [hrun]
  exact bind_apply_eq_ok_iff.2 ⟨_, back', hstep other content' back' hother,
    hnext content' back' hback fuel (by omega)⟩

/-- The place is in a later round.  This round does not look at it, since there is something in
front of the place that it does not use up. -/
theorem later {used : List Char} {first : γ}
    (hrun : ∀ fuel, run (fuel + drop) = step >>= fun first => next first fuel)
    (htakes : Takes step used first (front ++ middle)) (hfront : front ≠ [])
    (hcost : cost + drop ≤ used.length + cost')
    (h : Place cost (next first) inner front middle rest content put) :
    Place cost' run inner (used ++ front) middle rest content put := by
  obtain ⟨back, hinner, hends, hput⟩ := h
  refine ⟨back, hinner, hends, fun other content' back' hother hback fuel hfuel => ?_⟩
  rw [List.append_assoc] at hfuel ⊢
  rw [List.length_append] at hfuel
  obtain ⟨fuel, rfl⟩ := Nat.exists_eq_add_of_le' (show drop ≤ fuel by omega)
  rw [hrun]
  exact bind_apply_eq_ok_iff.2 ⟨first, front ++ other,
    htakes _ (continues_append hfront middle other),
    hput other content' back' hother hback fuel (by omega)⟩

/-- A place in the rounds that follow is a place in what is made of them. -/
theorem follow {σ : Type} {run : Nat → σ → Read α} {state : σ} {finish : α → α}
    (h : Place cost (run · state) inner front middle rest content put) :
    Place cost (fun fuel => (Round.more state finish).follow (run fuel)) inner front middle rest
      content (fun value => finish (put value)) := by
  obtain ⟨back, hinner, hends, hput⟩ := h
  refine ⟨back, hinner, hends, fun other content' back' hother hback fuel hfuel => ?_⟩
  exact bind_apply_eq_ok_iff.2
    ⟨put content', rest, hput other content' back' hother hback fuel hfuel, rfl⟩

/-- More fuel makes no difference. -/
theorem mono (h : Place cost run inner front middle rest content put) (hcost : cost ≤ cost') :
    Place cost' run inner front middle rest content put := by
  obtain ⟨back, hinner, hends, hput⟩ := h
  exact ⟨back, hinner, hends, fun other content' back' hother hback fuel hfuel =>
    hput other content' back' hother hback fuel (by omega)⟩

end Place

/-- The rounds that follow are read whatever the blanks in front of them, with fuel for each
character. -/
theorem BoundedRounds.of_sameBehindBlanks {run : Nat → Read α} {fuel fuel' : Nat}
    {text other rest : List Char} {value : α} (hrounds : BoundedRounds run fuel)
    (hskips : SkipsBlanks (run fuel)) (h : run fuel text = .ok (value, rest))
    (hother : SameBehindBlanks other text) (hfuel : other.length ≤ fuel') :
    run fuel' other = .ok (value, rest) := by
  rw [← hskips.eq hother] at h
  obtain ⟨used, rfl, htakes⟩ := hrounds other value rest h
  rw [List.length_append] at hfuel
  exact htakes fuel' (by omega) rest (Continues.refl rest)

/-! ## Parts -/

/-- A step reads a part of a text that another one reads, in one place of it. -/
def Part (outer : Read α) (inner : Read β) (text rest : List Char) (content : β)
    (put : β → α) : Prop :=
  ∃ front middle, text = front ++ middle ∧
    Place 0 (fun _ => outer) inner front middle rest content put

/-- A part of a part. -/
theorem Part.trans {outer : Read α} {middle : Read β} {inner : Read γ}
    {text rest : List Char} {content : β} {content' : γ} {put : β → α} {put' : γ → β}
    (h : Part outer middle text rest content put)
    (h' : ∀ text rest, middle text = .ok (content, rest) →
      Part middle inner text rest content' put') :
    Part outer inner text rest content' (fun value => put (put' value)) := by
  obtain ⟨front, text', rfl, rest', hmiddle, -, hput⟩ := h
  obtain ⟨front', text'', rfl, rest'', hinner, hends, hput'⟩ := h' text' rest' hmiddle
  refine ⟨front ++ front', text'', (List.append_assoc ..).symm, rest'', hinner, hends, ?_⟩
  intro other value back hvalue hback fuel _
  rw [List.append_assoc]
  have hpart := hput' other value back hvalue hback _ (Nat.le_refl _)
  exact hput _ _ _ hpart rfl _ (Nat.le_refl _)

/-- What a step reads behind its first character has a place, so the step has a part. -/
theorem Place.part {cost : Nat} {outer : Read γ} {run : Nat → Read α} {inner : Read β} {c : Char}
    {text front middle rest : List Char} {content : β} {put : β → α} {put' : β → γ}
    (h : Place cost run inner front middle rest content put)
    (htext : text.dropWhile isBlank = c :: (front ++ middle))
    (houter : ∀ value text tail, text.dropWhile isBlank = c :: tail →
      run (tail.length + cost) tail = .ok (put value, rest) →
        outer text = .ok (put' value, rest)) :
    Part outer inner text rest content put' := by
  obtain ⟨back, hinner, hends, hput⟩ := h
  obtain ⟨blanks, hsplit, hblanks⟩ := exists_blanks text
  rw [htext] at hsplit
  refine ⟨blanks ++ c :: front, middle, by simp [hsplit], back, hinner, hends, ?_⟩
  intro other value back' hother hback fuel _
  refine houter value _ (front ++ other) ?_ (hput other value back' hother hback _ (Nat.le_refl _))
  rw [List.append_assoc, hblanks]
  exact dropWhile_isBlank_cons htext _

/-! ## Items -/

/-- Where an item follows, any other item may follow. -/
theorem IsItem.exists_front {item : Read α} (hitem : IsItem item) {first : Bool}
    {text rest : List Char} (h : nextItem first text = .ok (true, rest)) :
    ∃ front, text = front ++ rest ∧ (first = false → front ≠ []) ∧
      ∀ other value back, item other = .ok (value, back) →
        ∃ start, nextItem first (front ++ other) = .ok (true, start) ∧
          item start = .ok (value, back) := by
  have hstart : ∀ {other value back c tail}, item other = .ok (value, back) →
      other.dropWhile isBlank = c :: tail → item (c :: tail) = .ok (value, back) := by
    intro other value back c tail hother hopens
    rw [← hopens, hitem.skips, hother]
  obtain ⟨blanks, htext, hblanks⟩ := exists_blanks text
  obtain ⟨c, tail, hrest, hcases⟩ := nextItem_eq_ok_iff.1 h
  rw [hrest] at htext
  rcases hcases with ⟨-, hmore, -⟩ | ⟨-, rfl, -, rfl⟩ | ⟨rfl, rfl, hbehind⟩
  · cases hmore
  · refine ⟨blanks, htext, nofun, fun other value back hother => ?_⟩
    obtain ⟨c', tail', hopens, hclose⟩ := hitem.opens other value back hother
    exact ⟨c' :: tail', nextItem_eq_ok_iff.2 ⟨c', tail', (hblanks other).trans hopens,
      .inr (.inl ⟨hclose, rfl, rfl, rfl⟩)⟩, hstart hother hopens⟩
  · -- behind a comma there may be blanks once more, which `nextItem` uses up
    obtain ⟨-, hbehindRest, -⟩ := behindComma_eq_ok_iff.1 hbehind
    obtain ⟨others, htail, hothers⟩ := exists_blanks tail
    rw [hbehindRest] at htail
    refine ⟨blanks ++ ',' :: others, by simp [htext, htail], by simp, ?_⟩
    intro other value back hother
    obtain ⟨c', tail', hopens, hclose⟩ := hitem.opens other value back hother
    refine ⟨c' :: tail', nextItem_eq_ok_iff.2
      ⟨',', others ++ other, ?_, .inr (.inr ⟨rfl, rfl, ?_⟩)⟩, hstart hother hopens⟩
    · rw [List.append_assoc, hblanks, List.cons_append]
      exact dropWhile_isBlank_cons hrest _
    · exact behindComma_eq_ok_iff.2 ⟨rfl, (hothers other).trans hopens, c', tail', rfl, hclose⟩

theorem continues_of_nextItem {text rest : List Char} {more : Bool}
    (h : nextItem false text = .ok (more, rest)) : Continues [] text := by
  obtain ⟨c, tail, hrest, ⟨rfl, -⟩ | ⟨-, hfirst, -⟩ | ⟨rfl, -⟩⟩ := nextItem_eq_ok_iff.1 h
  · exact continues_nil_of_dropWhile hrest (by decide)
  · cases hfirst
  · exact continues_nil_of_dropWhile hrest (by decide)

theorem continues_of_items {item : Read α} {fuel : Nat} {text rest : List Char} {values : List α}
    (h : items item false fuel text = .ok (values, rest)) : Continues [] text := by
  cases fuel with
  | zero => cases h
  | succ fuel =>
      obtain ⟨more, middle, hmore, -⟩ := bind_apply_eq_ok_iff.1 h
      exact continues_of_nextItem hmore

/-- The item of this round has a place.  The first round has to be paid for, since nothing may stand
in front of the first item. -/
theorem exists_first_item_place {item : Read α} (hlocal : Local item) (hitem : IsItem item)
    {first : Bool} {fuel : Nat} {text middle back rest : List Char} {value : α} {others : List α}
    (hmore : nextItem first text = .ok (true, middle)) (hvalue : item middle = .ok (value, back))
    (hothers : items item false fuel back = .ok (others, rest)) :
    ∃ front, text = front ++ middle ∧ (first = false → front ≠ []) ∧
      Place (if first then 1 else 0) (items item first) item front middle rest value
        (· :: others) := by
  obtain ⟨front, rfl, hne, hfront⟩ := hitem.exists_front hmore
  have hspent : 0 + 1 ≤ front.length + (if first then 1 else 0) := by
    cases first with
    | false => exact List.length_pos_iff.2 (hne rfl)
    | true => exact Nat.le_add_left 1 _
  refine ⟨front, rfl, hne, Place.here (items_succ item first) hlocal hvalue
    (continues_of_items hothers) (fun value => .more () (value :: ·)) ?round ?others hspent⟩
  case round =>
    intro other value' back' hother
    obtain ⟨start, hstart, hread⟩ := hfront other value' back' hother
    exact bind_apply_eq_ok_iff.2 ⟨true, start, hstart,
      bind_apply_eq_ok_iff.2 ⟨value', back', hread, rfl⟩⟩
  case others =>
    intro value' other hother fuel' hfuel'
    exact bind_apply_eq_ok_iff.2 ⟨others, rest,
      (boundedRounds_items hlocal fuel).of_sameBehindBlanks
        (skipsBlanks_items item false fuel) hothers hother hfuel', rfl⟩

/-- An item that is left has a place in the rest of a list. -/
theorem exists_item_place {item : Read α} (hlocal : Local item) (hitem : IsItem item) (fuel : Nat)
    (first : Bool) {text rest : List Char} {values : List α} {index : Nat} {value : α}
    (h : items item first fuel text = .ok (values, rest)) (hvalue : values[index]? = some value) :
    ∃ front middle, text = front ++ middle ∧ (first = false → front ≠ []) ∧
      Place (if first then 1 else 0) (items item first) item front middle rest value
        (values.set index) := by
  -- the rounds in front of the item use up at least a character each, so they pay for themselves
  induction fuel generalizing first text values index with
  | zero => cases h
  | succ fuel ih =>
      rw [items_succ] at h
      obtain ⟨result, after, hround, hfollow⟩ := bind_apply_eq_ok_iff.1 h
      obtain ⟨more, middle, hmore, hhead⟩ := bind_apply_eq_ok_iff.1 hround
      cases more with
      | false =>
          cases hhead
          cases hfollow
          cases hvalue
      | true =>
          obtain ⟨head, back, hitemHere, hresult⟩ := bind_apply_eq_ok_iff.1 hhead
          cases hresult
          obtain ⟨others, rest', hothers, hvalues⟩ := bind_apply_eq_ok_iff.1 hfollow
          cases hvalues
          cases index with
          | zero =>
              cases hvalue
              obtain ⟨front, rfl, hne, hplace⟩ :=
                exists_first_item_place hlocal hitem hmore hitemHere hothers
              exact ⟨front, middle, rfl, hne, hplace⟩
          | succ index =>
              obtain ⟨front, middle', rfl, hne, hplace⟩ := ih false hothers hvalue
              obtain ⟨used, rfl, htakes⟩ := local_itemRound hlocal first text _ _ hround
              have hspent : 0 + 1 ≤ used.length + (if first then 1 else 0) := by
                cases first with
                | false => exact (progresses_itemRound hlocal).length_pos hround
                | true => exact Nat.le_add_left 1 _
              exact ⟨used ++ front, middle', (List.append_assoc ..).symm,
                fun _ => List.append_ne_nil_of_right_ne_nil used (hne rfl),
                Place.later (items_succ item first) htakes (hne rfl) hspent hplace.follow⟩

theorem listOf_eq_ok_iff {item : Read α} {text rest : List Char} {values : List α} :
    listOf item text = .ok (values, rest) ↔
      ∃ tail, text.dropWhile isBlank = '[' :: tail ∧ list item tail = .ok (values, rest) := by
  have heq : listOf item = (peek? >>= fun head =>
      if head = some '[' then advance >>= fun _ => list item else mismatch "a sequence") := by
    refine congrArg (peek? >>= ·) (funext fun head => ?_)
    split
    · rfl
    · next hbracket => exact (if_neg hbracket).symm
  rw [heq, peek?_ite_eq_ok_iff]
  exact or_iff_left fun h => mismatch_ne_ok _ _ _ _ h.2

/-- An item is a part of its list. -/
theorem part_listOf {item : Read α} (hlocal : Local item) (hitem : IsItem item)
    {text rest : List Char} {values : List α} {index : Nat} {value : α}
    (h : listOf item text = .ok (values, rest)) (hvalue : values[index]? = some value) :
    Part (listOf item) item text rest value (values.set index) := by
  obtain ⟨tail, htail, hlist⟩ := listOf_eq_ok_iff.1 h
  obtain ⟨front, middle, rfl, -, hplace⟩ := exists_item_place hlocal hitem _ true hlist hvalue
  exact hplace.part htail fun value text tail htail hlist =>
    listOf_eq_ok_iff.2 ⟨tail, htail, hlist⟩

end CallRedirect.Json.Read
