import CallRedirect.Proofs.ReadingSkips
import CallRedirect.Rule.Config

/-!
# Records are read locally

The shapes of the rule file are put together from texts, lists, variants and records.  Each of
them is local if its parts are, so no shape needs an argument about texts.

A step that goes by the first character ends in `mismatch` where nothing fits.  What that step
looks at in order to explain the fault makes no difference, since it never succeeds
(`gives_mismatch`).
-/

namespace CallRedirect.Json.Read

variable {α β δ : Type}

/-- All values that a step gives are good. -/
def Gives (good : α → Prop) (step : Read α) : Prop :=
  ∀ text value rest, step text = .ok (value, rest) → good value

theorem gives_fail (good : α → Prop) (cause : ReadError) : Gives good (fail cause) :=
  fun _ _ _ => nofun

theorem Gives.bind {good : β → Prop} {step : Read α} {next : α → Read β}
    (hnext : ∀ first, Gives good (next first)) : Gives good (step >>= next) := by
  intro text value rest h
  obtain ⟨first, middle, -, hvalue⟩ := bind_apply_eq_ok_iff.1 h
  exact hnext first middle value rest hvalue

/-- What was not expected is never read. -/
theorem gives_mismatch (good : α → Prop) (expected : String) :
    Gives good (mismatch expected : Read α) := by
  refine Gives.bind fun head => ?_
  split
  · exact gives_fail good _
  · exact Gives.bind fun _ => gives_fail good _
  · exact Gives.bind fun _ => gives_fail good _
  · exact Gives.bind fun _ => gives_fail good _
  · exact Gives.bind fun _ => Gives.bind fun _ => gives_fail good _
  · exact gives_fail good _
  · exact gives_fail good _
  · split
    · exact Gives.bind fun _ => gives_fail good _
    · exact gives_fail good _

theorem mismatch_ne_ok (expected : String) (text : List Char) (value : α) (rest : List Char) :
    (mismatch expected : Read α) text ≠ .ok (value, rest) :=
  gives_mismatch (fun _ => False) expected text value rest

theorem localAt_mismatch (expected : String) (text : List Char) :
    LocalAt (mismatch expected : Read α) text :=
  localAt_of_ne_ok (mismatch_ne_ok expected text)

theorem local_string (expected : String) : Local (string expected) := by
  refine local_peek (mismatch_ne_ok expected []) fun c tail => ?_
  split
  · exact localAt_advance_bind _ (local_stringBody tail)
  · exact localAt_mismatch expected _

theorem local_text : Local text := local_string "a string"

theorem local_optional {shape : Read α} (hshape : Local shape)
    (hnone : ∀ value rest, shape [] ≠ .ok (value, rest)) : Local (optional shape) := by
  refine local_peek ?_ fun c tail => ?_
  · intro value rest h
    obtain ⟨found, middle, hfound, -⟩ := bind_apply_eq_ok_iff.1 h
    exact hnone found middle hfound
  · split
    · exact (local_word _ _).bind fun _ middle _ => localAt_pure none middle
    · exact (hshape _).bind fun found middle _ => localAt_pure (some found) middle

theorem local_unit : Local unit := by
  refine local_peek (mismatch_ne_ok "unit" []) fun c tail => ?_
  split
  · exact local_word _ _
  · exact localAt_mismatch _ _

theorem local_listOf {item : Read α} (hitem : Local item) : Local (listOf item) := by
  refine local_peek (mismatch_ne_ok "a sequence" []) fun c tail => ?_
  split
  · exact localAt_advance_bind _ (local_list hitem tail)
  · exact localAt_mismatch _ _

/-! ## Variants -/

theorem localAt_variantName (variants : List (Variant α)) (c : Char) (tail : List Char) :
    LocalAt (variantName variants) (c :: tail) := by
  refine localAt_advance_bind c ((local_stringBody tail).bind fun name middle _ => ?_)
  split
  · exact localAt_pure _ middle
  · exact localAt_fail _ middle

theorem local_variantKey (variants : List (Variant α)) : Local (variantKey variants) := by
  refine local_peek (fun _ _ => nofun) fun c tail => ?_
  split
  · nofun
  · exact localAt_variantName variants _ tail
  · exact localAt_fail _ _
  · exact localAt_fail _ _

theorem gives_variantName (variants : List (Variant α)) :
    Gives (· ∈ variants) (variantName variants) := by
  refine Gives.bind fun _ => Gives.bind fun name => ?_
  split
  case h_1 variant hfound =>
    intro text given rest h
    cases h
    exact List.mem_of_find?_eq_some hfound
  case h_2 => exact gives_fail _ _

theorem gives_variantKey (variants : List (Variant α)) :
    Gives (· ∈ variants) (variantKey variants) := by
  refine Gives.bind fun head => ?_
  split
  · exact gives_fail _ _
  · exact gives_variantName variants
  · exact gives_fail _ _
  · exact gives_fail _ _

theorem local_oneOf {variants : List (Variant α)}
    (hcontent : ∀ variant ∈ variants, Local variant.content) : Local (oneOf variants) := by
  refine local_peek (fun _ _ => nofun) fun c tail => ?_
  split
  · nofun
  · refine (localAt_variantName variants _ tail).bind fun variant middle _ => ?_
    split
    · exact localAt_pure _ middle
    · exact localAt_fail _ middle
  · refine localAt_advance_bind _ ((local_variantKey variants tail).bind
      fun variant middle hvariant => ?_)
    -- the name was found among the variants, so the content is local
    have hmem := gives_variantKey variants tail _ _ hvariant
    refine (local_colon middle).bind fun _ middle _ => ?_
    refine (hcontent variant hmem middle).bind fun value middle _ => ?_
    refine local_peek ?_ (fun c tail => ?_) middle
    · exact fun _ _ => nofun
    · split
      · nofun
      · exact localAt_advance_bind _ (localAt_pure value tail)
      · exact localAt_fail _ _
  · exact localAt_fail _ _

/-! ## Records -/

namespace RecordShape

variable {shape : RecordShape δ α}

/-- Every field of a record is filled in by a step that is local. -/
def LocalFields (shape : RecordShape δ α) : Prop :=
  ∀ field ∈ shape.fields, ∀ draft, Local (field.fill draft)

theorem local_readMember (hfields : shape.LocalFields) (key : String) (draft : δ) :
    Local (shape.readMember key draft) := by
  unfold readMember
  split
  case h_1 field hfield =>
    split
    · exact local_fail _
    · exact local_colon.bind fun _ => hfields field (List.mem_of_find?_eq_some hfield) draft
  case h_2 => exact local_colon.bind fun _ => local_skip.bind fun _ => local_pure draft

theorem local_readElements {fields : List (RecordField δ)}
    (hfields : ∀ field ∈ fields, ∀ draft, Local (field.fill draft)) (draft : δ) (position : Nat) :
    Local (readElements shape draft position fields) := by
  induction fields generalizing draft position with
  | nil => exact local_pure draft
  | cons field others ih =>
      obtain ⟨hfield, hothers⟩ := List.forall_mem_cons.1 hfields
      refine (local_nextItem _).bind fun more => ?_
      cases more with
      | false => exact local_fail _
      | true => exact (hfield draft).bind fun draft => ih hothers draft (position + 1)

theorem local_readEnd : Local readEnd := by
  refine local_peek (fun _ _ => nofun) fun c tail => ?_
  split
  · nofun
  · exact localAt_advance _ tail
  · refine localAt_advance_bind _ (local_peek ?_ (fun c tail => ?_) tail)
    · exact fun _ _ => nofun
    · split <;> exact localAt_fail _ _
  · exact localAt_fail _ _

theorem local_conclude (draft : δ) : Local (shape.conclude draft) := by
  unfold conclude
  split
  · exact local_pure _
  · exact local_fail _

theorem local_read (hfields : shape.LocalFields) : Local shape.read := by
  refine local_peek (mismatch_ne_ok shape.title []) fun c tail => ?_
  split
  · exact localAt_advance_bind _ ((local_object (local_readMember hfields) shape.blank tail).bind
      fun draft middle _ => local_conclude draft middle)
  · exact localAt_advance_bind _ ((local_readElements hfields shape.blank 0 tail).bind
      fun draft middle _ => (local_readEnd middle).bind fun _ middle _ =>
        local_conclude draft middle)
  · exact localAt_mismatch _ _

end RecordShape

end CallRedirect.Json.Read
