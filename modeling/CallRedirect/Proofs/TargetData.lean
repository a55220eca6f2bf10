import CallRedirect.Explain
import CallRedirect.Proofs.Outcome
import Mathlib.Data.List.Forall2

/-!
# Target data

Target data goes through two descriptions of one format.  It is checked against a schema first,
and what passes is read as records.

* `Json.Schema` is what a schema of the keywords used here says about a value.  A keyword says
  nothing about values of another type: an object keyword accepts every array.
* `TargetForm.faults_eq_nil_iff`: the check finds no fault exactly if the schema of target data
  accepts the value.
* `ClassTarget.Recorded` is the record of a target.  What the schema accepts are lists of such
  records (`TargetForm.accepts_iff_exists_recorded`), and reading them gives the targets back
  (`ClassTarget.listOfValue_of_recorded`).

Reading alone accepts more than the schema does: records given as arrays, and empty texts.  It
accepts nothing less, so nothing that passed the check is refused behind it.
-/

namespace CallRedirect

/-! ## Schemas -/

namespace Json

/-- The types of values that a schema can ask for. -/
inductive SchemaType
  | string
  | array
  | object
  deriving DecidableEq, Repr

/-- Whether a value has a type. -/
def SchemaType.Holds : SchemaType → Value → Prop
  | string, value => ∃ text, value = .string text
  | array, value => ∃ items, value = .array items
  | object, value => ∃ members, value = .object members

/-- A schema: one keyword with its content, or two schemas that both apply. -/
inductive Schema
  | ofType (type : SchemaType)
  | minLength (count : Nat)
  | items (item : Schema)
  | required (key : String)
  | property (key : String) (content : Schema)
  | both (first second : Schema)
  deriving Repr

/-- Whether a schema accepts a value.  A keyword for texts, arrays or objects accepts all other
values, and `property` accepts objects without the member. -/
def Schema.Accepts : Schema → Value → Prop
  | .ofType type, value => type.Holds value
  | .minLength count, value => ∀ text, value = .string text → count ≤ text.length
  | .items item, value => ∀ items, value = .array items → ∀ value ∈ items, item.Accepts value
  | .required key, value =>
      ∀ members, value = .object members → (TargetForm.member? key members).isSome
  | .property key content, value =>
      ∀ members, value = .object members →
        ∀ value, TargetForm.member? key members = some value → content.Accepts value
  | .both first second, value => first.Accepts value ∧ second.Accepts value

end Json

namespace TargetForm

open Json (Schema)

/-- The schema of a class name or a method identifier. -/
def textSchema : Schema := .both (.ofType .string) (.minLength 1)

/-- The schema of the identifiers of a record. -/
def textListSchema : Schema := .both (.ofType .array) (.items textSchema)

/-- The schema of a record. -/
def recordSchema : Schema :=
  .both (.ofType .object) (.both (.both (.required "class") (.required "methods"))
    (.both (.property "class" textSchema) (.property "methods" textListSchema)))

/-- The schema of target data. -/
def schema : Schema := .both (.ofType .array) (.items recordSchema)

/-! ## What the check accepts -/

theorem accepts_textSchema_iff {value : Json.Value} :
    textSchema.Accepts value ↔ ∃ text, value = .string text ∧ text ≠ "" := by
  constructor
  · rintro ⟨⟨text, rfl⟩, hlength⟩
    refine ⟨text, rfl, ?_⟩
    rintro rfl
    exact absurd (hlength "" rfl) (by decide)
  · rintro ⟨text, rfl, htext⟩
    refine ⟨⟨text, rfl⟩, ?_⟩
    rintro same hsame
    cases hsame
    exact Nat.one_le_iff_ne_zero.2 fun hzero => htext (String.length_eq_zero_iff.1 hzero)

theorem textFaults_eq_nil_iff {value : Json.Value} :
    textFaults value = [] ↔ textSchema.Accepts value := by
  rw [accepts_textSchema_iff]
  cases value <;> simp [textFaults]

/-- An array is accepted if each of its items is. -/
theorem accepts_list_iff {item : Schema} {value : Json.Value} :
    (Schema.both (.ofType .array) (.items item)).Accepts value ↔
      ∃ items, value = .array items ∧ ∀ value ∈ items, item.Accepts value := by
  constructor
  · rintro ⟨⟨items, rfl⟩, hitems⟩
    exact ⟨items, rfl, hitems items rfl⟩
  · rintro ⟨items, rfl, hitems⟩
    refine ⟨⟨items, rfl⟩, ?_⟩
    rintro same hsame
    cases hsame
    exact hitems

theorem textListFaults_eq_nil_iff {value : Json.Value} :
    textListFaults value = [] ↔ textListSchema.Accepts value := by
  rw [textListSchema, accepts_list_iff]
  cases value with
  | array items => simp [textListFaults, textFaults_eq_nil_iff]
  | _ => simp [textListFaults]

/-- An object is accepted as a record if both members are there and accepted. -/
theorem accepts_recordSchema_iff {value : Json.Value} :
    recordSchema.Accepts value ↔
      ∃ members className methods, value = .object members ∧
        member? "class" members = some className ∧ member? "methods" members = some methods ∧
        textSchema.Accepts className ∧ textListSchema.Accepts methods := by
  constructor
  · rintro ⟨⟨members, rfl⟩, ⟨hclass, hmethods⟩, hclassText, hmethodsTexts⟩
    obtain ⟨className, hclassName⟩ := Option.isSome_iff_exists.1 (hclass members rfl)
    obtain ⟨methods, hfound⟩ := Option.isSome_iff_exists.1 (hmethods members rfl)
    exact ⟨members, className, methods, rfl, hclassName, hfound,
      hclassText members rfl className hclassName, hmethodsTexts members rfl methods hfound⟩
  · rintro ⟨members, className, methods, rfl, hclassName, hfound, hclassText, hmethodsTexts⟩
    refine ⟨⟨members, rfl⟩, ⟨?_, ?_⟩, ?_, ?_⟩
    all_goals
      intro same hsame
      cases hsame
    · rw [hclassName]
      rfl
    · rw [hfound]
      rfl
    · intro value hvalue
      rw [hclassName] at hvalue
      cases hvalue
      exact hclassText
    · intro value hvalue
      rw [hfound] at hvalue
      cases hvalue
      exact hmethodsTexts

theorem recordFaults_eq_nil_iff {value : Json.Value} :
    recordFaults value = [] ↔ recordSchema.Accepts value := by
  rw [accepts_recordSchema_iff]
  cases value with
  | object members =>
      cases hclass : member? "class" members with
      | none => simp [recordFaults, hclass]
      | some className =>
          cases hmethods : member? "methods" members with
          | none => simp [recordFaults, hmethods]
          | some methods =>
              simp [recordFaults, hclass, hmethods, textFaults_eq_nil_iff,
                textListFaults_eq_nil_iff]
  | _ => simp [recordFaults]

/-- The check of target data finds no fault exactly if the schema accepts the value. -/
theorem faults_eq_nil_iff {value : Json.Value} : faults value = [] ↔ schema.Accepts value := by
  rw [schema, accepts_list_iff]
  cases value with
  | array items => simp [faults, recordFaults_eq_nil_iff]
  | _ => simp [faults]

end TargetForm

/-! ## Records -/

/-- A list is the image of another one if each of its items is the image of a good value. -/
theorem exists_map_eq {α β : Type} {image : α → β} {good : α → Prop} {items : List β}
    (h : ∀ item ∈ items, ∃ value, item = image value ∧ good value) :
    ∃ values : List α, items = values.map image ∧ ∀ value ∈ values, good value := by
  induction items with
  | nil => exact ⟨[], rfl, List.forall_mem_nil _⟩
  | cons item items ih =>
      obtain ⟨hhere, hrest⟩ := List.forall_mem_cons.1 h
      obtain ⟨value, rfl, hvalue⟩ := hhere
      obtain ⟨values, rfl, hvalues⟩ := ih hrest
      exact ⟨value :: values, rfl, List.forall_mem_cons.2 ⟨hvalue, hvalues⟩⟩

/-- Each item of a list is related to some value if there are values related to the items one by
one. -/
theorem forall_exists_iff_exists_forall₂ {α β : Type} {related : α → β → Prop} {items : List β} :
    (∀ item ∈ items, ∃ value, related value item) ↔
      ∃ values, List.Forall₂ related values items := by
  induction items with
  | nil => simp
  | cons item items ih =>
      rw [List.forall_mem_cons, ih]
      simp only [List.forall₂_cons_right_iff]
      constructor
      · rintro ⟨⟨value, hvalue⟩, values, hvalues⟩
        exact ⟨value :: values, value, values, hvalue, hvalues, rfl⟩
      · rintro ⟨_, value, values, hvalue, hvalues, -⟩
        exact ⟨⟨value, hvalue⟩, values, hvalues⟩

theorem mapM_eq_ok_iff_forall₂ {ε α β : Type} {step : α → Except ε β} {items : List α}
    {values : List β} :
    items.mapM step = .ok values ↔
      List.Forall₂ (fun value item => step item = .ok value) values items := by
  induction items generalizing values with
  | nil =>
      rw [List.mapM_nil, pure_eq_ok_iff, List.forall₂_nil_right_iff]
      exact eq_comm
  | cons item items ih =>
      simp only [List.mapM_cons, bind_eq_ok_iff, pure_eq_ok_iff, List.forall₂_cons_right_iff, ih]
      constructor
      · rintro ⟨value, hvalue, others, hothers, rfl⟩
        exact ⟨value, others, hvalue, hothers, rfl⟩
      · rintro ⟨value, others, hvalue, hothers, rfl⟩
        exact ⟨value, hvalue, others, hothers, rfl⟩

/-- The members of a record hold the texts of a target, none of which is empty.  Other members
may stand beside them. -/
structure ClassTarget.Recorded (target : ClassTarget) (members : List (String × Json.Value)) :
    Prop where
  className : TargetForm.member? "class" members = some (.string target.className)
  className_ne : target.className ≠ ""
  methods : TargetForm.member? "methods" members = some (.ofStrings target.methods)
  methods_ne : ∀ method ∈ target.methods, method ≠ ""

namespace TargetForm

theorem accepts_textListSchema_iff {value : Json.Value} :
    textListSchema.Accepts value ↔
      ∃ texts : List String, value = .ofStrings texts ∧ ∀ text ∈ texts, text ≠ "" := by
  rw [textListSchema, accepts_list_iff]
  simp only [accepts_textSchema_iff]
  constructor
  · rintro ⟨items, rfl, hitems⟩
    obtain ⟨texts, rfl, htexts⟩ := exists_map_eq hitems
    exact ⟨texts, rfl, htexts⟩
  · rintro ⟨texts, rfl, htexts⟩
    exact ⟨texts.map .string, rfl, List.forall_mem_map.2 fun text htext =>
      ⟨text, rfl, htexts text htext⟩⟩

theorem accepts_recordSchema_iff_exists_recorded {value : Json.Value} :
    recordSchema.Accepts value ↔
      ∃ members, value = .object members ∧ ∃ target : ClassTarget, target.Recorded members := by
  simp only [accepts_recordSchema_iff, accepts_textSchema_iff, accepts_textListSchema_iff]
  constructor
  · rintro ⟨members, _, _, rfl, hclass, hmethods, ⟨className, rfl, hname⟩, ⟨methods, rfl, htexts⟩⟩
    exact ⟨members, rfl, ⟨className, methods⟩, hclass, hname, hmethods, htexts⟩
  · rintro ⟨members, rfl, target, htarget⟩
    exact ⟨members, _, _, rfl, htarget.className, htarget.methods,
      ⟨_, rfl, htarget.className_ne⟩, ⟨_, rfl, htarget.methods_ne⟩⟩

/-- The schema accepts lists of records. -/
theorem accepts_iff_exists_recorded {value : Json.Value} :
    schema.Accepts value ↔
      ∃ targets records, value = .array (records.map .object) ∧
        List.Forall₂ ClassTarget.Recorded targets records := by
  rw [schema, accepts_list_iff]
  simp only [accepts_recordSchema_iff_exists_recorded]
  constructor
  · rintro ⟨items, rfl, hitems⟩
    obtain ⟨records, rfl, hrecords⟩ := exists_map_eq hitems
    obtain ⟨targets, htargets⟩ := forall_exists_iff_exists_forall₂.1 hrecords
    exact ⟨targets, records, rfl, htargets⟩
  · rintro ⟨targets, records, rfl, htargets⟩
    exact ⟨_, rfl, List.forall_mem_map.2 fun members hmembers =>
      ⟨members, rfl, forall_exists_iff_exists_forall₂.2 ⟨targets, htargets⟩ members hmembers⟩⟩

end TargetForm

/-! ## Reading records -/

namespace ClassTarget

theorem readTexts_ofStrings (texts : List String) : readTexts (.ofStrings texts) = .ok texts := by
  show (texts.map Json.Value.string).mapM readText = .ok texts
  rw [mapM_eq_ok_iff_forall₂, List.forall₂_map_right_iff, List.forall₂_same]
  exact fun text _ => rfl

theorem ofValue_of_recorded {target : ClassTarget} {members : List (String × Json.Value)}
    (h : target.Recorded members) : ofValue (.object members) = .ok target := by
  rw [ofValue, readMember, readMember, h.className, h.methods]
  simp only [readText, readTexts_ofStrings]
  rfl

/-- What records hold is read back. -/
theorem listOfValue_of_recorded {targets : List ClassTarget}
    {records : List (List (String × Json.Value))} (h : List.Forall₂ Recorded targets records) :
    listOfValue (.array (records.map .object)) = .ok targets := by
  rw [listOfValue, mapM_eq_ok_iff_forall₂, List.forall₂_map_right_iff]
  exact h.imp fun _ _ hrecord => ofValue_of_recorded hrecord

/-- What the schema accepts is read. -/
theorem exists_listOfValue_of_accepts {value : Json.Value} (h : TargetForm.schema.Accepts value) :
    ∃ targets, listOfValue value = .ok targets := by
  obtain ⟨targets, records, rfl, hrecords⟩ := TargetForm.accepts_iff_exists_recorded.1 h
  exact ⟨targets, listOfValue_of_recorded hrecords⟩

/-- Target data is read or refused by the check. -/
theorem fromValue_cases (value : Json.Value) (source : String) :
    (∃ targets, TargetForm.schema.Accepts value ∧ listOfValue value = .ok targets ∧
      fromValue value source = .ok targets) ∨
    (¬ TargetForm.schema.Accepts value ∧ TargetForm.faults value ≠ [] ∧
      fromValue value source = .error (.invalid source (TargetForm.faults value))) := by
  unfold fromValue
  rw [← TargetForm.faults_eq_nil_iff]
  cases hfaults : TargetForm.faults value with
  | nil =>
      -- no fault: the schema accepts the value, so reading it cannot fail either
      obtain ⟨targets, htargets⟩ :=
        exists_listOfValue_of_accepts (TargetForm.faults_eq_nil_iff.1 hfaults)
      exact .inl ⟨targets, rfl, htargets, by rw [htargets]; rfl⟩
  | cons fault faults => exact .inr ⟨List.cons_ne_nil _ _, List.cons_ne_nil _ _, rfl⟩

theorem fromValue_eq_ok_iff {value : Json.Value} {source : String} {targets : List ClassTarget} :
    fromValue value source = .ok targets ↔
      ∃ records, value = .array (records.map .object) ∧ List.Forall₂ Recorded targets records := by
  constructor
  · intro h
    rcases fromValue_cases value source with ⟨found, haccepts, hread, hfound⟩ | ⟨-, -, hfault⟩
    · obtain ⟨others, records, rfl, hrecords⟩ := TargetForm.accepts_iff_exists_recorded.1 haccepts
      rw [h] at hfound
      cases hfound
      rw [listOfValue_of_recorded hrecords] at hread
      cases hread
      exact ⟨records, rfl, hrecords⟩
    · rw [h] at hfault
      cases hfault
  · rintro ⟨records, rfl, hrecords⟩
    have haccepts := TargetForm.accepts_iff_exists_recorded.2 ⟨targets, records, rfl, hrecords⟩
    rw [fromValue, TargetForm.faults_eq_nil_iff.2 haccepts, listOfValue_of_recorded hrecords]
    rfl

/-- The targets that are read have names and identifiers that are not empty. -/
theorem ne_empty_of_fromValue {value : Json.Value} {source : String} {targets : List ClassTarget}
    (h : fromValue value source = .ok targets) :
    ∀ target ∈ targets, target.className ≠ "" ∧ ∀ method ∈ target.methods, method ≠ "" := by
  obtain ⟨records, -, hrecords⟩ := fromValue_eq_ok_iff.1 h
  intro target htarget
  obtain ⟨members, hrecord⟩ :=
    forall_exists_iff_exists_forall₂.2 ⟨records, hrecords.flip⟩ target htarget
  exact ⟨hrecord.className_ne, hrecord.methods_ne⟩

end ClassTarget

/-- Target data is accepted exactly if it is a list of records, which are then read in order with
the texts that they hold.  Anything else is refused by the check, which says so in the first
place; what the schema accepts is always read, so reading never fails behind the check. -/
theorem targetData_accepted_iff_recorded (value : Json.Value) (source : String) :
    (∀ targets, ClassTarget.fromValue value source = .ok targets ↔
      ∃ records, value = .array (records.map .object) ∧
        List.Forall₂ ClassTarget.Recorded targets records) ∧
    ((∃ targets, ClassTarget.fromValue value source = .ok targets) ↔
      TargetForm.schema.Accepts value) ∧
    (∀ cause, ClassTarget.fromValue value source = .error cause →
      ∃ faults, faults ≠ [] ∧ cause = .invalid source faults ∧
        cause.failure.texts.head? = some ("invalid target data in " ++ source)) ∧
    (TargetForm.schema.Accepts value → ∃ targets, ClassTarget.listOfValue value = .ok targets) := by
  refine ⟨fun _ => ClassTarget.fromValue_eq_ok_iff, ?schema, ?refused,
    ClassTarget.exists_listOfValue_of_accepts⟩
  case schema =>
    simp only [ClassTarget.fromValue_eq_ok_iff, TargetForm.accepts_iff_exists_recorded]
  case refused =>
    intro cause hcause
    rcases ClassTarget.fromValue_cases value source with ⟨targets, -, -, hok⟩ | ⟨-, hne, hfault⟩
    · rw [hcause] at hok
      cases hok
    · rw [hcause] at hfault
      cases hfault
      exact ⟨_, hne, rfl, rfl⟩

/-- A member of another name is passed over.  A record in an array, which reading alone would
take, is refused by the check. -/
theorem targetData_accepted_iff_recorded_array :
    let target : ClassTarget := ⟨"A", ["m()V"]⟩
    let record : List (String × Json.Value) :=
      [("class", .string "A"), ("methods", .array [.string "m()V"]), ("note", .null)]
    let listed : Json.Value := .array [.array [.string "A", .array []]]
    target.Recorded record ∧
    ClassTarget.fromValue (.array [.object record]) "t" = .ok [target] ∧
    (∃ targets, ClassTarget.listOfValue (.array [.object record]) = .ok targets) ∧
    ClassTarget.listOfValue listed = .ok [⟨"A", []⟩] ∧
    ∃ faults, faults ≠ [] ∧ ClassTarget.fromValue listed "t" = .error (.invalid "t" faults) := by
  intro target record listed
  have hrecord : target.Recorded record := ⟨rfl, by decide, rfl, by decide⟩
  have hrefused : ClassTarget.fromValue listed "t" =
      .error (.invalid "t" [.wrongType (.array [.string "A", .array []]) "object"]) := rfl
  obtain ⟨haccepted, hschema, -, hread⟩ :=
    targetData_accepted_iff_recorded (.array [.object record]) "t"
  obtain ⟨-, -, hfaults, -⟩ := targetData_accepted_iff_recorded listed "t"
  have hloaded : ClassTarget.fromValue (.array [.object record]) "t" = .ok [target] :=
    (haccepted [target]).2 ⟨[record], rfl, .cons hrecord .nil⟩
  obtain ⟨faults, hne, hcause, -⟩ := hfaults _ hrefused
  exact ⟨hrecord, hloaded, hread (hschema.1 ⟨_, hloaded⟩), rfl, faults, hne, hcause ▸ hrefused⟩

end CallRedirect
