import CallRedirect.Proofs.DocumentParts

/-!
# What a field is given is a part of the record

A record stands in an object, with a member for each field, or in an array, with an element for
each.  The content of a field that has to be there is a part of the record either way
(`RecordShape.part_read`).

* `RecordShape.OwnField` says that a field has a place of its own in the record: filling it in
  changes nothing about the other fields, and the finished record shows it.
* `OwnField.members_set` and `OwnField.arrayRest_set` carry another content of the field through
  what is read behind it.  An object cannot have the member twice, so this content is kept.
* `OwnField.exists_member_place` and `OwnField.exists_element_place` find the place, by induction
  on the members and on the fields in front of it.
-/

namespace CallRedirect.Json.Read

variable {α β δ : Type}

/-! ## Members -/

theorem colon_eq_ok_iff {text rest : List Char} {value : Unit} :
    colon text = .ok (value, rest) ↔ text.dropWhile isBlank = ':' :: rest := by
  have heq : colon = (peek? >>= fun head =>
      if head = some ':' then advance
      else fail (if head.isNone then .endInObject else .expectedColon)) := by
    refine congrArg (peek? >>= ·) (funext fun head => ?_)
    split
    · rfl
    · rfl
    · next c hcolon => exact (if_neg fun h => hcolon (Option.some.inj h)).symm
  rw [heq, peek?_ite_eq_ok_iff]
  constructor
  · rintro (⟨tail, htail, h⟩ | ⟨-, h⟩)
    · cases h
      exact htail
    · cases h
  · exact fun h => .inl ⟨rest, h, rfl⟩

theorem continues_of_members {σ : Type} {member : String → σ → Read σ} {fuel : Nat}
    {state state' : σ} {text rest : List Char}
    (h : members member false state fuel text = .ok (state', rest)) : Continues [] text := by
  cases fuel with
  | zero => cases h
  | succ fuel =>
      obtain ⟨key, middle, hkey, -⟩ := bind_apply_eq_ok_iff.1 h
      rw [nextKey_eq, peek?_bind_eq_ok_iff (by exact fun _ _ => nofun)] at hkey
      obtain ⟨c, tail, hrest, hkey⟩ := hkey
      refine continues_nil_of_dropWhile hrest ?_
      by_cases hbrace : c = '\x7d'
      · rw [hbrace]
        decide
      · by_cases hcomma : c = ','
        · rw [hcomma]
          decide
        · simp only [if_neg hbrace, if_neg hcomma, Bool.false_eq_true, if_false] at hkey
          split at hkey <;> cases hkey

/-! ## Elements -/

namespace RecordShape

theorem readEnd_eq_ok_iff {text rest : List Char} {value : Unit} :
    readEnd text = .ok (value, rest) ↔ text.dropWhile isBlank = ']' :: rest := by
  constructor
  · intro h
    rw [readEnd, peek?_bind_eq_ok_iff (by exact fun _ _ => nofun)] at h
    obtain ⟨c, tail, hrest, h⟩ := h
    by_cases hclose : c = ']'
    · subst hclose
      cases h
      exact hrest
    · refine ((?_ : Gives (fun _ : Unit => False) _) (c :: tail) value rest h).elim
      split
      · exact gives_fail _ _
      · next heq => exact absurd (Option.some.inj heq) hclose
      · refine Gives.bind fun _ => Gives.bind fun head => ?_
        split <;> exact gives_fail _ _
      · exact gives_fail _ _
  · intro h
    rw [readEnd, peek?_bind, h]
    rfl

variable {shape : RecordShape δ α}

/-- What is left of the elements of a record's array, up to its closing bracket. -/
def arrayRest (shape : RecordShape δ α) (draft : δ) (position : Nat)
    (fields : List (RecordField δ)) : Read δ := do
  let draft ← readElements shape draft position fields
  readEnd
  return draft

theorem arrayRest_nil_eq_ok_iff {draft draft' : δ} {position : Nat} {text rest : List Char} :
    arrayRest shape draft position [] text = .ok (draft', rest) ↔
      readEnd text = .ok ((), rest) ∧ draft' = draft := by
  show (readEnd >>= fun _ => pure draft) text = _ ↔ _
  rw [bind_apply_eq_ok_iff]
  constructor
  · rintro ⟨_, middle, hend, hdraft⟩
    cases hdraft
    exact ⟨hend, rfl⟩
  · rintro ⟨hend, rfl⟩
    exact ⟨(), rest, hend, rfl⟩

/-- The element for a field, behind its comma. -/
def elementStep (shape : RecordShape δ α) (draft : δ) (position : Nat) (field : RecordField δ) :
    Read δ := do
  if ← nextItem (position = 0) then field.fill draft
  else fail (.wrongLength position shape.sizeText)

theorem arrayRest_cons (draft : δ) (position : Nat) (field : RecordField δ)
    (others : List (RecordField δ)) :
    arrayRest shape draft position (field :: others) =
      elementStep shape draft position field >>= fun draft =>
        arrayRest shape draft (position + 1) others := by
  rw [arrayRest, readElements, elementStep, bind_assoc, bind_assoc]
  refine congrArg (nextItem _ >>= ·) (funext fun more => ?_)
  cases more with
  | false => rfl
  | true =>
      rw [if_pos rfl, if_pos rfl, bind_assoc]
      rfl

theorem elementStep_eq_ok_iff {draft draft' : δ} {position : Nat} {field : RecordField δ}
    {text rest : List Char} :
    elementStep shape draft position field text = .ok (draft', rest) ↔
      ∃ middle, nextItem (position = 0) text = .ok (true, middle) ∧
        field.fill draft middle = .ok (draft', rest) := by
  rw [elementStep, bind_apply_eq_ok_iff]
  constructor
  · rintro ⟨more, middle, hmore, h⟩
    cases more with
    | false => cases h
    | true => exact ⟨middle, hmore, h⟩
  · rintro ⟨middle, hmore, hfill⟩
    exact ⟨true, middle, hmore, hfill⟩

theorem local_elementStep (hfields : shape.LocalFields) (draft : δ) (position : Nat)
    {field : RecordField δ} (hfield : field ∈ shape.fields) :
    Local (elementStep shape draft position field) := by
  refine (local_nextItem _).bind fun more => ?_
  cases more with
  | false => exact local_fail _
  | true => exact hfields field hfield draft

theorem skipsBlanks_arrayRest (draft : δ) (position : Nat) (fields : List (RecordField δ)) :
    SkipsBlanks (arrayRest shape draft position fields) := by
  cases fields with
  | nil =>
      show SkipsBlanks (readEnd >>= fun _ => pure draft)
      exact SkipsBlanks.bind (skipsBlanks_peek _) _
  | cons field others =>
      rw [arrayRest_cons]
      exact ((skipsBlanks_nextItem _).bind _).bind _

theorem continues_of_arrayRest {draft draft' : δ} {position : Nat}
    {fields : List (RecordField δ)} {text rest : List Char}
    (h : arrayRest shape draft (position + 1) fields text = .ok (draft', rest)) :
    Continues [] text := by
  cases fields with
  | nil =>
      obtain ⟨hend, -⟩ := arrayRest_nil_eq_ok_iff.1 h
      exact continues_nil_of_dropWhile (readEnd_eq_ok_iff.1 hend) (by decide)
  | cons field others =>
      rw [arrayRest_cons] at h
      obtain ⟨_, _, helement, -⟩ := bind_apply_eq_ok_iff.1 h
      obtain ⟨middle, hmore, -⟩ := elementStep_eq_ok_iff.1 helement
      exact continues_of_nextItem hmore

end RecordShape

/-! ## Fields -/

namespace RecordShape

open RuleConfig (required)

variable {shape : RecordShape δ α}

/-- A field of a record that has to be there.  What it is given goes into one place of the record
(`place`), and the other fields have nothing to do with that place. -/
structure OwnField (shape : RecordShape δ α) (name : String) (get : δ → Option β)
    (set : β → δ → δ) (content : Read β) (pick : α → β) (place : β → α → α) : Prop where
  fields_eq : ∃ before after, shape.fields = before ++ required name get set content :: after ∧
    ∀ field ∈ before ++ after, field.name ≠ name
  get_blank : get shape.blank = none
  get_set : ∀ value draft, get (set value draft) = some value
  set_set : ∀ value value' draft, set value (set value' draft) = set value draft
  finish : ∀ draft record, shape.finish draft = some record →
    get draft = some (pick record) ∧
      ∀ value, shape.finish (set value draft) = some (place value record)
  others : ∀ field ∈ shape.fields, field.name ≠ name → ∀ value draft,
    field.isFilled (set value draft) = field.isFilled draft ∧
      ∀ text draft' rest, field.fill draft text = .ok (draft', rest) →
        get draft' = get draft ∧ field.fill (set value draft) text = .ok (set value draft', rest)

variable {name : String} {get : δ → Option β} {set : β → δ → δ} {content : Read β}
  {pick : α → β} {place : β → α → α}

namespace OwnField

variable (h : shape.OwnField name get set content pick place)

include h

theorem find?_eq :
    shape.fields.find? (fun field => field.name = name) =
      some (required name get set content) := by
  obtain ⟨before, after, hfields, hothers⟩ := h.fields_eq
  rw [hfields, List.find?_append, List.find?_eq_none.2 fun field hfield => ?_]
  · rw [Option.none_or]
    exact List.find?_cons_of_pos (by simp [required])
  · simpa using hothers field (List.mem_append_left _ hfield)

/-- What a field holds in the end is what it was given, if it was kept. -/
theorem eq_of_get {draft draft' : δ} {found value : β}
    (hkept : get draft' = get (set found draft)) (hvalue : get draft' = some value) :
    found = value := by
  rw [h.get_set, hvalue, Option.some.injEq] at hkept
  exact hkept.symm

/-- The member for the field gives it its content, and there is no second one. -/
theorem readMember_eq_ok_iff {draft draft' : δ} {text rest : List Char} :
    shape.readMember name draft text = .ok (draft', rest) ↔
      get draft = none ∧ ∃ value middle, colon text = .ok ((), middle) ∧
        content middle = .ok (value, rest) ∧ draft' = set value draft := by
  have hfilled : (required name get set content).isFilled draft = (get draft).isSome := rfl
  rw [readMember, h.find?_eq]
  cases hget : get draft with
  | some value =>
      simp only [hfilled, hget, Option.isSome_some, if_true]
      exact ⟨nofun, fun h => nomatch h.1⟩
  | none =>
      simp only [hfilled, hget, Option.isSome_none, Bool.false_eq_true, if_false]
      rw [bind_apply_eq_ok_iff, true_and]
      constructor
      · rintro ⟨_, middle, hcolon, hfill⟩
        obtain ⟨value, _, hvalue, hset⟩ := bind_apply_eq_ok_iff.1 hfill
        cases hset
        exact ⟨value, middle, hcolon, hvalue, rfl⟩
      · rintro ⟨value, middle, hcolon, hvalue, rfl⟩
        exact ⟨(), middle, hcolon, bind_apply_eq_ok_iff.2 ⟨value, rest, hvalue, rfl⟩⟩

/-- The other members have nothing to do with the field. -/
theorem readMember_set {key : String} (hkey : key ≠ name) {draft draft' : δ}
    {text rest : List Char} (hmember : shape.readMember key draft text = .ok (draft', rest))
    (value : β) :
    get draft' = get draft ∧
      shape.readMember key (set value draft) text = .ok (set value draft', rest) := by
  unfold readMember at hmember ⊢
  cases hfound : shape.fields.find? (fun field => field.name = key) with
  | none =>
      simp only [hfound] at hmember ⊢
      obtain ⟨_, middle, hcolon, hskip⟩ := bind_apply_eq_ok_iff.1 hmember
      obtain ⟨_, after, hskip, hdraft⟩ := bind_apply_eq_ok_iff.1 hskip
      cases hdraft
      exact ⟨rfl, bind_apply_eq_ok_iff.2 ⟨(), middle, hcolon,
        bind_apply_eq_ok_iff.2 ⟨(), rest, hskip, rfl⟩⟩⟩
  | some field =>
      have hname : field.name = key := by simpa using List.find?_some hfound
      obtain ⟨hfilled, hfill⟩ := h.others field (List.mem_of_find?_eq_some hfound)
        (hname ▸ hkey) value draft
      simp only [hfound] at hmember ⊢
      cases hdraft : field.isFilled draft with
      | true =>
          simp only [hdraft, if_true] at hmember
          cases hmember
      | false =>
          simp only [hfilled, hdraft, Bool.false_eq_true, if_false] at hmember ⊢
          obtain ⟨_, middle, hcolon, hmember⟩ := bind_apply_eq_ok_iff.1 hmember
          obtain ⟨hget, hset⟩ := hfill middle draft' rest hmember
          exact ⟨hget, bind_apply_eq_ok_iff.2 ⟨(), middle, hcolon, hset⟩⟩

/-- Once the field has its content, it keeps it, and what is left of the object does the same with
any other content. -/
theorem members_set {fuel : Nat} {first : Bool} {draft draft' : δ} {text rest : List Char}
    (hfilled : get draft ≠ none)
    (hmembers : members shape.readMember first draft fuel text = .ok (draft', rest)) (value : β) :
    get draft' = get draft ∧
      members shape.readMember first (set value draft) fuel text =
        .ok (set value draft', rest) := by
  induction fuel generalizing first draft text with
  | zero => cases hmembers
  | succ fuel ih =>
      obtain ⟨key, middle, hkey, hmembers⟩ := bind_apply_eq_ok_iff.1 hmembers
      cases key with
      | none =>
          cases hmembers
          exact ⟨rfl, bind_apply_eq_ok_iff.2 ⟨none, rest, hkey, rfl⟩⟩
      | some key =>
          obtain ⟨draft'', after, hmember, hmembers⟩ := bind_apply_eq_ok_iff.1 hmembers
          have hname : key ≠ name := by
            rintro rfl
            exact hfilled (h.readMember_eq_ok_iff.1 hmember).1
          obtain ⟨hget, hset⟩ := h.readMember_set hname hmember value
          obtain ⟨hgets, hsets⟩ := ih (hget ▸ hfilled) hmembers
          exact ⟨hgets.trans hget, bind_apply_eq_ok_iff.2 ⟨some key, middle, hkey,
            bind_apply_eq_ok_iff.2 ⟨_, after, hset, hsets⟩⟩⟩

/-- Behind the key of the field and its colon is the place of its content. -/
theorem exists_own_member_place (hfields : shape.LocalFields) (hcontent : Local content)
    {fuel : Nat} {first : Bool} {draft draft' draft'' : δ} {text middle after rest : List Char}
    {value : β} (hkey : nextKey first text = .ok (some name, middle))
    (hmember : shape.readMember name draft middle = .ok (draft'', after))
    (hothers : members shape.readMember false draft'' fuel after = .ok (draft', rest))
    (hvalue : get draft' = some value) :
    ∃ front start, text = front ++ start ∧ front ≠ [] ∧
      Place 0 (members shape.readMember first draft) content front start rest value
        (fun value => set value draft') := by
  obtain ⟨hempty, found, start, hcolon, hfound, rfl⟩ := h.readMember_eq_ok_iff.1 hmember
  have hfilled : get (set found draft) ≠ none := by
    rw [h.get_set]
    exact nofun
  -- the members behind this one leave the field as it is, whatever it was given
  have hkept := fun value' => h.members_set hfilled hothers value'
  obtain rfl := h.eq_of_get (hkept value).1 hvalue
  obtain ⟨used, rfl, htakes⟩ := local_nextKey first text _ _ hkey
  obtain ⟨blanks, hmiddle, hblanks⟩ := exists_blanks middle
  rw [colon_eq_ok_iff] at hcolon
  rw [hcolon] at hmiddle
  have hne : blanks ++ [':'] ≠ [] := List.append_ne_nil_of_right_ne_nil blanks nofun
  have hfront : used ++ (blanks ++ [':']) ≠ [] := List.append_ne_nil_of_right_ne_nil used hne
  refine ⟨used ++ (blanks ++ [':']), start, by simp [hmiddle], hfront,
    Place.here (members_succ shape.readMember first draft) hcontent hfound
      (continues_of_members hothers) (fun value => .more (false, set value draft) id)
      ?round ?others (List.length_pos_iff.2 hfront)⟩
  case round =>
    intro other value' back' hother
    have hcontinues : Continues middle (blanks ++ [':'] ++ other) := by
      rw [hmiddle, List.append_cons]
      exact continues_append hne _ _
    rw [List.append_assoc]
    refine bind_apply_eq_ok_iff.2 ⟨some name, _, htakes _ hcontinues,
      bind_apply_eq_ok_iff.2 ⟨set value' draft, back', ?_, rfl⟩⟩
    refine h.readMember_eq_ok_iff.2 ⟨hempty, value', other, ?_, hother, rfl⟩
    rw [colon_eq_ok_iff, List.append_assoc, hblanks]
    exact dropWhile_isBlank_cons hcolon other
  case others =>
    intro value' other hother fuel' hfuel'
    have hset := (hkept value').2
    rw [h.set_set] at hset
    rw [Round.follow_more_id]
    exact (boundedRounds_members (local_readMember hfields) fuel false _).of_sameBehindBlanks
      (skipsBlanks_members _ false _ fuel) hset hother hfuel'

/-- The content of the field has a place in the object, if the field is not filled yet. -/
theorem exists_member_place (hfields : shape.LocalFields) (hcontent : Local content) {fuel : Nat}
    {first : Bool} {draft draft' : δ} {text rest : List Char} {value : β}
    (hmembers : members shape.readMember first draft fuel text = .ok (draft', rest))
    (hempty : get draft = none) (hvalue : get draft' = some value) :
    ∃ front middle, text = front ++ middle ∧ front ≠ [] ∧
      Place 0 (members shape.readMember first draft) content front middle rest value
        (fun value => set value draft') := by
  have hlocal := local_readMember hfields
  -- the members in front of the one for the field are of other names, and leave it empty
  induction fuel generalizing first draft text with
  | zero => cases hmembers
  | succ fuel ih =>
      rw [members_succ] at hmembers
      obtain ⟨result, after, hround, hfollow⟩ := bind_apply_eq_ok_iff.1 hmembers
      obtain ⟨key, middle, hkey, hmember⟩ := bind_apply_eq_ok_iff.1 hround
      cases key with
      | none =>
          cases hmember
          cases hfollow
          rw [hempty] at hvalue
          cases hvalue
      | some key =>
          obtain ⟨draft'', back, hmember, hresult⟩ := bind_apply_eq_ok_iff.1 hmember
          cases hresult
          rw [Round.follow_more_id] at hfollow
          by_cases hname : key = name
          · subst hname
            exact h.exists_own_member_place hfields hcontent hkey hmember hfollow hvalue
          · have hget := (h.readMember_set hname hmember value).1
            obtain ⟨front, middle', rfl, hne, hplace⟩ := ih hfollow (hget.trans hempty)
            obtain ⟨used, rfl, htakes⟩ := local_memberRound hlocal first draft text _ _ hround
            have hspent : 0 + 1 ≤ used.length + 0 :=
              (progresses_memberRound hlocal first draft).length_pos hround
            exact ⟨used ++ front, middle', (List.append_assoc ..).symm,
              List.append_ne_nil_of_right_ne_nil used hne,
              Place.later (members_succ _ first draft) htakes hne hspent hplace.follow⟩

/-- The elements of other fields have nothing to do with the field. -/
theorem arrayRest_set {fields : List (RecordField δ)}
    (hfields : ∀ field ∈ fields, field ∈ shape.fields ∧ field.name ≠ name) {draft draft' : δ}
    {position : Nat} {text rest : List Char}
    (helements : arrayRest shape draft position fields text = .ok (draft', rest)) (value : β) :
    get draft' = get draft ∧
      arrayRest shape (set value draft) position fields text = .ok (set value draft', rest) := by
  induction fields generalizing draft position text with
  | nil =>
      obtain ⟨hend, rfl⟩ := arrayRest_nil_eq_ok_iff.1 helements
      exact ⟨rfl, arrayRest_nil_eq_ok_iff.2 ⟨hend, rfl⟩⟩
  | cons field others ih =>
      obtain ⟨⟨hmem, hname⟩, hothers⟩ := List.forall_mem_cons.1 hfields
      rw [arrayRest_cons] at helements ⊢
      obtain ⟨draft'', after, helement, helements⟩ := bind_apply_eq_ok_iff.1 helements
      obtain ⟨middle, hmore, hfill⟩ := elementStep_eq_ok_iff.1 helement
      obtain ⟨hget, hset⟩ := (h.others field hmem hname value draft).2 middle draft'' after hfill
      obtain ⟨hgets, hsets⟩ := ih hothers helements
      exact ⟨hgets.trans hget, bind_apply_eq_ok_iff.2
        ⟨_, after, elementStep_eq_ok_iff.2 ⟨middle, hmore, hset⟩, hsets⟩⟩

/-- The content of the field has a place in the array of elements, behind those of the fields in
front of it. -/
theorem exists_element_place (hfields : shape.LocalFields) (hlocal : Local content)
    (hcontent : IsItem content) {before after : List (RecordField δ)}
    (hbefore : ∀ field ∈ before, field ∈ shape.fields)
    (hafter : ∀ field ∈ after, field ∈ shape.fields ∧ field.name ≠ name)
    {draft draft' : δ} {position : Nat} {text rest : List Char} {value : β}
    (helements : arrayRest shape draft position (before ++ required name get set content :: after)
      text = .ok (draft', rest)) (hvalue : get draft' = some value) :
    ∃ front middle, text = front ++ middle ∧ (position ≠ 0 → front ≠ []) ∧
      Place 0 (fun _ => arrayRest shape draft position
          (before ++ required name get set content :: after)) content front middle rest value
        (fun value => set value draft') := by
  induction before generalizing draft position text with
  | nil =>
      rw [List.nil_append, arrayRest_cons] at helements
      obtain ⟨draft'', back, helement, hothers⟩ := bind_apply_eq_ok_iff.1 helements
      obtain ⟨middle, hmore, hfill⟩ := elementStep_eq_ok_iff.1 helement
      obtain ⟨found, _, hfound, hdraft⟩ := bind_apply_eq_ok_iff.1 hfill
      cases hdraft
      have hkept := fun value' => h.arrayRest_set hafter hothers value'
      obtain rfl := h.eq_of_get (hkept value).1 hvalue
      obtain ⟨front, rfl, hne, hfront⟩ := hcontent.exists_front hmore
      refine ⟨front, middle, rfl, fun hposition => hne (decide_eq_false hposition),
        Place.here (fun _ => arrayRest_cons ..) hlocal hfound (continues_of_arrayRest hothers)
          (fun value => set value draft) ?_ ?_ (show 0 + 0 ≤ front.length + 0 from Nat.zero_le _)⟩
      · intro other value' back' hother
        obtain ⟨start, hstart, hread⟩ := hfront other value' back' hother
        exact elementStep_eq_ok_iff.2 ⟨start, hstart,
          bind_apply_eq_ok_iff.2 ⟨value', back', hread, rfl⟩⟩
      · intro value' other hother _ _
        have hset := (hkept value').2
        rw [h.set_set] at hset
        rw [(skipsBlanks_arrayRest _ _ _).eq hother, hset]
  | cons field before ih =>
      obtain ⟨hmem, hbefore⟩ := List.forall_mem_cons.1 hbefore
      rw [List.cons_append, arrayRest_cons] at helements
      obtain ⟨draft'', back, helement, hothers⟩ := bind_apply_eq_ok_iff.1 helements
      obtain ⟨front, middle, rfl, hne, hplace⟩ := ih hbefore hothers
      have hne := hne (Nat.succ_ne_zero position)
      obtain ⟨used, rfl, htakes⟩ :=
        local_elementStep hfields draft position hmem text _ _ helement
      exact ⟨used ++ front, middle, (List.append_assoc ..).symm,
        fun _ => List.append_ne_nil_of_right_ne_nil used hne,
        Place.later (fun _ => arrayRest_cons ..) htakes hne
          (show 0 + 0 ≤ used.length + 0 from Nat.zero_le _) hplace⟩

end OwnField

theorem conclude_eq_ok_iff {draft : δ} {text rest : List Char} {record : α} :
    shape.conclude draft text = .ok (record, rest) ↔
      shape.finish draft = some record ∧ rest = text := by
  unfold conclude
  cases hfinish : shape.finish draft with
  | none => exact ⟨nofun, fun h => nomatch h.1⟩
  | some found =>
      constructor
      · intro h
        cases h
        exact ⟨rfl, rfl⟩
      · rintro ⟨h, rfl⟩
        cases h
        rfl

/-- A record stands in an object or in an array. -/
theorem read_eq (shape : RecordShape δ α) :
    shape.read = (peek? >>= fun head =>
      if head = some '\x7b' then
        advance >>= fun _ => object shape.readMember shape.blank >>= shape.conclude
      else if head = some '[' then
        advance >>= fun _ => arrayRest shape shape.blank 0 shape.fields >>= shape.conclude
      else mismatch shape.title) := by
  refine congrArg (peek? >>= ·) (funext fun head => ?_)
  split
  · rfl
  · simp only [arrayRest, bind_assoc, pure_bind]
    rfl
  · next hobject harray => exact ((if_neg hobject).trans (if_neg harray)).symm

theorem read_eq_ok_iff {text rest : List Char} {record : α} :
    shape.read text = .ok (record, rest) ↔
      (∃ tail draft, text.dropWhile isBlank = '\x7b' :: tail ∧
        object shape.readMember shape.blank tail = .ok (draft, rest) ∧
        shape.finish draft = some record) ∨
      ∃ tail draft, text.dropWhile isBlank = '[' :: tail ∧
        arrayRest shape shape.blank 0 shape.fields tail = .ok (draft, rest) ∧
        shape.finish draft = some record := by
  have hconclude : ∀ {step : Read δ} {tail : List Char},
      (step >>= shape.conclude) tail = .ok (record, rest) ↔
        ∃ draft, step tail = .ok (draft, rest) ∧ shape.finish draft = some record := by
    intro step tail
    rw [bind_apply_eq_ok_iff]
    constructor
    · rintro ⟨draft, middle, hdraft, hrecord⟩
      obtain ⟨hfinish, rfl⟩ := conclude_eq_ok_iff.1 hrecord
      exact ⟨draft, hdraft, hfinish⟩
    · rintro ⟨draft, hdraft, hfinish⟩
      exact ⟨draft, rest, hdraft, conclude_eq_ok_iff.2 ⟨hfinish, rfl⟩⟩
  rw [read_eq, peek?_ite_eq_ok_iff, peek?_ite_eq_ok_iff]
  constructor
  · rintro (⟨tail, htail, h⟩ | ⟨-, ⟨tail, htail, h⟩ | ⟨-, h⟩⟩)
    · obtain ⟨draft, hdraft, hfinish⟩ := hconclude.1 h
      exact .inl ⟨tail, draft, htail, hdraft, hfinish⟩
    · obtain ⟨draft, hdraft, hfinish⟩ := hconclude.1 h
      exact .inr ⟨tail, draft, htail, hdraft, hfinish⟩
    · exact absurd h (mismatch_ne_ok _ _ _ _)
  · rintro (⟨tail, draft, htail, hdraft, hfinish⟩ | ⟨tail, draft, htail, hdraft, hfinish⟩)
    · exact .inl ⟨tail, htail, hconclude.2 ⟨draft, hdraft, hfinish⟩⟩
    · have hobject : (text.dropWhile isBlank).head? ≠ some '\x7b' := by
        rw [htail, List.head?_cons]
        decide
      exact .inr ⟨hobject, .inl ⟨tail, htail, hconclude.2 ⟨draft, hdraft, hfinish⟩⟩⟩

/-- What a field is given is a part of the record. -/
theorem part_read (h : shape.OwnField name get set content pick place)
    (hfields : shape.LocalFields) (hlocal : Local content) (hcontent : IsItem content)
    {text rest : List Char} {record : α} (hread : shape.read text = .ok (record, rest)) :
    Part shape.read content text rest (pick record) (fun value => place value record) := by
  rcases read_eq_ok_iff.1 hread with
    ⟨tail, draft, htail, hdraft, hfinish⟩ | ⟨tail, draft, htail, hdraft, hfinish⟩
  · obtain ⟨hpick, hplace⟩ := h.finish draft record hfinish
    obtain ⟨front, middle, rfl, -, hmember⟩ :=
      h.exists_member_place hfields hlocal hdraft h.get_blank hpick
    exact (hmember.mono (Nat.zero_le 1)).part htail fun value text tail htail hdraft =>
      read_eq_ok_iff.2 (.inl ⟨tail, _, htail, hdraft, hplace value⟩)
  · obtain ⟨hpick, hplace⟩ := h.finish draft record hfinish
    obtain ⟨before, after, hshape, hothers⟩ := h.fields_eq
    have hbefore : ∀ field ∈ before, field ∈ shape.fields := fun field hfield =>
      hshape ▸ List.mem_append_left _ hfield
    have hafter : ∀ field ∈ after, field ∈ shape.fields ∧ field.name ≠ name := fun field hfield =>
      ⟨hshape ▸ List.mem_append_right _ (List.mem_cons_of_mem _ hfield),
        hothers field (List.mem_append_right _ hfield)⟩
    rw [hshape] at hdraft
    obtain ⟨front, middle, rfl, -, helement⟩ :=
      h.exists_element_place hfields hlocal hcontent hbefore hafter hdraft hpick
    exact helement.part htail fun value text tail htail hdraft =>
      read_eq_ok_iff.2 (.inr ⟨tail, _, htail, hshape ▸ hdraft, hplace value⟩)

end RecordShape

end CallRedirect.Json.Read
