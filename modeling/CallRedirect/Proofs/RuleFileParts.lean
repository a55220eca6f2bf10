import CallRedirect.Proofs.RecordParts

/-!
# The targets of an entry are a part of the rule file

The rule file is a record with a list of records.  So the targets of an entry are a part of a part
of a part of it (`RuleConfig.part_targets`), and they have a place in its text
(`RuleConfig.exists_targets_place`): whatever else is read as targets may stand there, and the
file gives the same entries but for the targets of this one.

Arrays and objects may nest less deep in that place than in a file of its own, because the place
is inside of three of them.  A value that may stand there may stand in a file
(`RuleConfig.valueParse_of_readAll`).
-/

namespace CallRedirect

open Json (Read)
open Json.Read

namespace RuleConfig

variable {δ α : Type}

theorem local_fill_required {name : String} {get : δ → Option α} {set : α → δ → δ}
    {content : Read α} (hcontent : Local content) (draft : δ) :
    Local ((required name get set content).fill draft) :=
  hcontent.bind fun value => local_pure (set value draft)

theorem local_fill_optional {name : String} {get : δ → Option (Option α)}
    {set : Option α → δ → δ} {content : Read α} (hcontent : Local content)
    (hnone : ∀ value rest, content [] ≠ .ok (value, rest)) (draft : δ) :
    Local ((optional name get set content).fill draft) :=
  (local_optional hcontent hnone).bind fun value => local_pure (set value draft)

theorem localFields_invokeStaticShape : invokeStaticShape.LocalFields := by
  intro field hfield draft
  simp only [invokeStaticShape, List.mem_cons, List.not_mem_nil, or_false] at hfield
  rcases hfield with rfl | rfl | rfl
  · exact local_fill_required local_text draft
  · exact local_fill_required local_text draft
  · exact local_fill_optional local_text (mismatch_ne_ok "a string" []) draft

theorem localFields_renameShape : renameShape.LocalFields := by
  intro field hfield draft
  simp only [renameShape, List.mem_cons, List.not_mem_nil, or_false] at hfield
  rcases hfield with rfl | rfl
  · exact local_fill_required local_text draft
  · exact local_fill_optional local_text (mismatch_ne_ok "a string" []) draft

theorem local_redirect : Local redirect := by
  refine local_oneOf fun variant hvariant => ?_
  simp only [List.mem_cons, List.not_mem_nil, or_false] at hvariant
  rcases hvariant with rfl | rfl
  · exact RecordShape.local_read localFields_invokeStaticShape
  · exact RecordShape.local_read localFields_renameShape

theorem local_kind : Local kind := by
  refine local_oneOf fun variant hvariant => ?_
  obtain ⟨kind, -, rfl⟩ := List.mem_map.1 hvariant
  exact local_unit.bind fun _ => local_pure kind

theorem local_targets : Local targets := by
  refine (local_value targetNesting).bind fun value => ?_
  split <;> exact local_pure _

theorem localFields_entryShape : entryShape.LocalFields := by
  intro field hfield draft
  simp only [entryShape, List.mem_cons, List.not_mem_nil, or_false] at hfield
  rcases hfield with rfl | rfl | rfl | rfl | rfl | rfl
  · exact local_fill_required local_text draft
  · exact local_fill_required local_kind draft
  · exact local_fill_required local_text draft
  · exact local_fill_required local_text draft
  · exact local_fill_required local_targets draft
  · exact local_fill_required local_redirect draft

theorem local_entry : Local entryShape.read := RecordShape.local_read localFields_entryShape

theorem localFields_fileShape : fileShape.LocalFields := by
  intro field hfield draft
  obtain rfl := List.mem_singleton.1 hfield
  exact local_fill_required (local_listOf local_entry) draft

theorem isItem_targets : IsItem targets := by
  refine IsItem.bind (isItem_peek ?_ ?_) _
  · exact fun _ _ => nofun
  · exact fun _ _ _ => nofun

theorem isItem_entry : IsItem entryShape.read :=
  isItem_peek (mismatch_ne_ok _ []) fun tail => mismatch_ne_ok _ (']' :: tail)

theorem isItem_entries : IsItem (listOf entryShape.read) :=
  isItem_peek (mismatch_ne_ok _ []) fun tail => mismatch_ne_ok _ (']' :: tail)

/-- Two fields that lie apart: filling one in changes nothing about the other. -/
theorem required_apart {β : Type} {name : String} {get : δ → Option α} {set : α → δ → δ}
    {content : Read α} (own : δ → Option β) (put : β → δ → δ)
    (hget : ∀ value draft, get (put value draft) = get draft)
    (hown : ∀ value draft, own (set value draft) = own draft)
    (hset : ∀ value value' draft, set value (put value' draft) = put value' (set value draft))
    (value : β) (draft : δ) :
    (required name get set content).isFilled (put value draft) =
        (required name get set content).isFilled draft ∧
      ∀ text draft' rest,
        (required name get set content).fill draft text = .ok (draft', rest) →
          own draft' = own draft ∧
            (required name get set content).fill (put value draft) text =
              .ok (put value draft', rest) := by
  refine ⟨congrArg Option.isSome (hget value draft), fun text draft' rest h => ?_⟩
  obtain ⟨found, middle, hfound, hdraft⟩ := bind_apply_eq_ok_iff.1 h
  cases hdraft
  refine ⟨hown found draft, bind_apply_eq_ok_iff.2 ⟨found, rest, hfound, ?_⟩⟩
  rw [hset]
  rfl

theorem ownField_targets :
    entryShape.OwnField "targets" (·.targets)
      (fun source draft => { draft with targets := some source }) targets (·.targets)
      (fun source entry => { entry with targets := source }) where
  fields_eq := by
    refine ⟨entryShape.fields.take 4, entryShape.fields.drop 5, rfl, ?_⟩
    intro field hfield
    simp only [entryShape, List.take_succ_cons, List.take_zero, List.drop_succ_cons,
      List.drop_zero, List.cons_append, List.nil_append, List.mem_cons, List.not_mem_nil,
      or_false] at hfield
    rcases hfield with rfl | rfl | rfl | rfl | rfl <;> exact of_decide_eq_true rfl
  get_blank := rfl
  get_set _ _ := rfl
  set_set _ _ _ := rfl
  finish draft record h := by
    simp only [entryShape, Option.bind_eq_bind, Option.bind_eq_some_iff, Option.pure_def,
      Option.some.injEq] at h ⊢
    obtain ⟨name, hname, kind, hkind, method, hmethod, descriptor, hdescriptor, source, hsource,
      redirect, hredirect, rfl⟩ := h
    exact ⟨hsource, fun source => ⟨name, hname, kind, hkind, method, hmethod, descriptor,
      hdescriptor, source, rfl, redirect, hredirect, rfl⟩⟩
  others := by
    intro field hfield hname value draft
    have hapart := fun {β : Type} {name get set content} hget hown hset =>
      @required_apart EntryDraft β TargetSource name get set content (·.targets)
        (fun source draft => { draft with targets := some source }) hget hown hset value draft
    simp only [entryShape, List.mem_cons, List.not_mem_nil, or_false] at hfield
    rcases hfield with rfl | rfl | rfl | rfl | rfl | rfl
    · exact hapart (fun _ _ => rfl) (fun _ _ => rfl) (fun _ _ _ => rfl)
    · exact hapart (fun _ _ => rfl) (fun _ _ => rfl) (fun _ _ _ => rfl)
    · exact hapart (fun _ _ => rfl) (fun _ _ => rfl) (fun _ _ _ => rfl)
    · exact hapart (fun _ _ => rfl) (fun _ _ => rfl) (fun _ _ _ => rfl)
    · exact absurd rfl hname
    · exact hapart (fun _ _ => rfl) (fun _ _ => rfl) (fun _ _ _ => rfl)

theorem ownField_rules :
    fileShape.OwnField "rules" id (fun entries _ => some entries) (listOf entryShape.read) id
      (fun entries _ => entries) where
  fields_eq := ⟨[], [], rfl, nofun⟩
  get_blank := rfl
  get_set _ _ := rfl
  set_set _ _ _ := rfl
  finish _ _ h := ⟨h, fun _ => rfl⟩
  others field hfield hname := by
    obtain rfl := List.mem_singleton.1 hfield
    exact absurd rfl hname

/-- The targets of an entry are a part of the text of a rule file. -/
theorem part_targets {text rest : List Char} {entries : List RuleEntry} {index : Nat}
    {entry : RuleEntry} (h : fileShape.read text = .ok (entries, rest))
    (hentry : entries[index]? = some entry) :
    Part fileShape.read targets text rest entry.targets
      (fun source => entries.set index { entry with targets := source }) := by
  have hfile := RecordShape.part_read ownField_rules localFields_fileShape
    (local_listOf local_entry) isItem_entries h
  refine hfile.trans fun text' rest' hentries => ?_
  refine (part_listOf local_entry isItem_entry hentries hentry).trans fun text' rest' hread => ?_
  exact RecordShape.part_read ownField_targets localFields_entryShape local_targets
    isItem_targets hread

/-- A text without what stands in front of a place, put together with something else, is read in
front of what stood behind the place as it is read alone. -/
theorem exists_of_readAll_append {step : Read α} (hstep : Local step) {data : String} {value : α}
    {back : List Char} (hdata : Json.readAll step data = .ok value)
    (hback : Json.Continues [] back) :
    ∃ rest, step (data.toList ++ back) = .ok (value, rest) ∧ SameBehindBlanks rest back := by
  obtain ⟨blanks, hread, hblanks⟩ := Json.readAll_eq_ok_iff.1 hdata
  obtain ⟨used, hused, htakes⟩ := hstep _ value blanks hread
  refine ⟨blanks ++ back, ?_, ?_⟩
  · rw [hused, List.append_assoc]
    refine htakes _ ?_
    cases blanks with
    | nil => exact hback
    | cons c blanks => rfl
  · exact List.dropWhile_append_of_pos (List.dropWhile_eq_nil_iff.1 hblanks)

/-- The targets of an entry have a place in the text of the rule file.  What stands there makes no
difference to anything but the targets of this entry. -/
theorem exists_targets_place {text : String} {entries : List RuleEntry} {index : Nat}
    {entry : RuleEntry} (h : parse text = .ok entries) (hentry : entries[index]? = some entry) :
    ∃ front given back : String, text = front ++ given ++ back ∧
      targets (given ++ back).toList = .ok (entry.targets, back.toList) ∧
      ∀ data source, Json.readAll targets data = .ok source →
        parse (front ++ data ++ back) =
          .ok (entries.set index { entry with targets := source }) := by
  obtain ⟨rest, hread, hrest⟩ := Json.readAll_eq_ok_iff.1 h
  obtain ⟨front, middle, htext, back, hmiddle, hends, hput⟩ := part_targets hread hentry
  obtain ⟨given, rfl, -⟩ := local_targets middle _ _ hmiddle
  refine ⟨String.ofList front, String.ofList given, String.ofList back, ?_, ?_, ?_⟩
  · rw [← String.toList_inj, htext]
    simp only [String.toList_append, String.toList_ofList, List.append_assoc]
  · simpa only [String.toList_append, String.toList_ofList] using hmiddle
  · intro data source hdata
    obtain ⟨rest', hsource, hsame⟩ := exists_of_readAll_append local_targets hdata hends
    refine Json.readAll_eq_ok_iff.2 ⟨rest, ?_, hrest⟩
    have hnew := hput _ source rest' hsource hsame _ (Nat.le_refl _)
    simpa only [String.toList_append, String.toList_ofList, List.append_assoc] using hnew

/-- A value that is not a text gives the targets in place. -/
theorem readAll_targets_of_value {data : String} {value : Json.Value}
    (hdata : Json.readAll (Json.Read.value targetNesting) data = .ok value)
    (hvalue : ∀ text, value ≠ .string text) :
    Json.readAll targets data = .ok (.inline value) := by
  obtain ⟨rest, hread, hrest⟩ := Json.readAll_eq_ok_iff.1 hdata
  refine Json.readAll_eq_ok_iff.2 ⟨rest, bind_apply_eq_ok_iff.2 ⟨value, rest, hread, ?_⟩, hrest⟩
  cases value with
  | string text => exact absurd rfl (hvalue text)
  | _ => rfl

/-- A text gives the path of a file with the targets. -/
theorem readAll_targets_of_string {name path : String}
    (hname : Json.readAll (Json.Read.value targetNesting) name = .ok (.string path)) :
    Json.readAll targets name = .ok (.path path) := by
  obtain ⟨rest, hread, hrest⟩ := Json.readAll_eq_ok_iff.1 hname
  exact Json.readAll_eq_ok_iff.2 ⟨rest, bind_apply_eq_ok_iff.2 ⟨_, rest, hread, rfl⟩, hrest⟩

/-- What may stand in place of the targets of an entry may stand in a file of its own. -/
theorem valueParse_of_readAll {data : String} {value : Json.Value}
    (hdata : Json.readAll (Json.Read.value targetNesting) data = .ok value) :
    Json.Value.parse data = .ok value :=
  Json.readAll_of_refines (refines_value (Nat.sub_le Json.maxNesting 3)) hdata

end RuleConfig

end CallRedirect
