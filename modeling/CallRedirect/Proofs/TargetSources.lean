import CallRedirect.Proofs.RuleFileParts
import CallRedirect.Proofs.RuleLoading

/-!
# Targets in place and targets from a file

The targets of an entry stand in the rule file, or in a file that the entry names.  A rule file is
compared with the one in which the targets of one entry have moved to a file.

* `RuleSet.TargetsMoved` says how the two trees of files differ.
* `Alike` compares two outcomes: the same value, or errors that are related.  Entries that load
  alike one by one make the same rules or stop at the same position (`RuleSet.alike_of_entries`).
* `RuleSet.SameFault` relates the errors: they come from the same check, and they differ in the
  source of the targets that have moved.  `RuleSet.SameTexts` says the same of their texts.
* `RuleSet.LoadAlike` compares the loading of two rule files, with the errors related in this way
  (`RuleSet.TargetsMoved.load_alike`).

The errors are NOT the same up to the source if another entry names the rule file itself as its
target data.  No rule file is accepted as target data (`RuleConfig.not_accepts_of_parse`), so both
rule files fail there, but the messages show what the two rule files say.
-/

namespace CallRedirect

open Json (Read)

variable {system : FileSystem} {base : String}

/-! ## Where targets come from -/

namespace ClassTarget

theorem load_of_readText {path text : String} (h : system.readText path = .ok text) :
    load system path = parseAll text path := by
  rw [load, h, mapError_ok, ok_bind]

theorem parseAll_of_parse {text : String} {value : Json.Value}
    (h : Json.Value.parse text = .ok value) (source : String) :
    parseAll text source = fromValue value source := by
  rw [parseAll, h, mapError_ok, ok_bind]

/-- The same value is accepted from everywhere, with the same targets, or refused for the same
faults. -/
theorem fromValue_source (value : Json.Value) (source source' : String) :
    (∃ targets, fromValue value source = .ok targets ∧ fromValue value source' = .ok targets) ∨
      ∃ faults, fromValue value source = .error (.invalid source faults) ∧
        fromValue value source' = .error (.invalid source' faults) := by
  rcases fromValue_cases value source with ⟨targets, haccepts, hread, hok⟩ | ⟨hnot, -, hfault⟩
  · rcases fromValue_cases value source' with ⟨targets', -, hread', hok'⟩ | ⟨hnot', -⟩
    · rw [hread] at hread'
      cases hread'
      exact .inl ⟨targets, hok, hok'⟩
    · exact absurd haccepts hnot'
  · rcases fromValue_cases value source' with ⟨-, haccepts, -⟩ | ⟨-, -, hfault'⟩
    · exact absurd haccepts hnot
    · exact .inr ⟨_, hfault, hfault'⟩

end ClassTarget

namespace RuleEntry

variable {entry : RuleEntry}

theorem loadTargets_of_inline {given : Json.Value} (h : entry.targets = .inline given)
    (system : FileSystem) (base : String) :
    entry.loadTargets system base = ClassTarget.fromValue given entry.name := by
  rw [loadTargets, h]

theorem loadTargets_of_path {named : String} (h : entry.targets = .path named)
    (system : FileSystem) (base : String) :
    entry.loadTargets system base = ClassTarget.load system (Path.join base named) := by
  rw [loadTargets, h]

end RuleEntry

/-! ## A rule file is never target data -/

namespace Json.Read

theorem value_of_bracket {depth : Nat} {text tail rest : List Char} {content : Value}
    (h : value (depth + 1) text = .ok (content, rest))
    (htext : text.dropWhile isBlank = '[' :: tail) :
    ∃ items, content = .array items ∧ list (value depth) tail = .ok (items, rest) := by
  rw [value, valueWith, peek?_bind, htext] at h
  obtain ⟨_, _, hadvance, h⟩ := bind_apply_eq_ok_iff.1 h
  cases hadvance
  obtain ⟨items, middle, hitems, h⟩ := bind_apply_eq_ok_iff.1 h
  cases h
  exact ⟨items, rfl, hitems⟩

theorem value_of_brace {depth : Nat} {text tail rest : List Char} {content : Value}
    (h : value (depth + 1) text = .ok (content, rest))
    (htext : text.dropWhile isBlank = '\x7b' :: tail) : ∃ members, content = .object members := by
  rw [value, valueWith, peek?_bind, htext] at h
  obtain ⟨_, _, hadvance, h⟩ := bind_apply_eq_ok_iff.1 h
  cases hadvance
  obtain ⟨members, middle, hmembers, h⟩ := bind_apply_eq_ok_iff.1 h
  cases h
  exact ⟨members, rfl⟩

/-- A list starts with the item that stands where an item follows. -/
theorem exists_cons_of_list {α : Type} {item : Read α} {text middle rest : List Char}
    {values : List α} (h : list item text = .ok (values, rest))
    (hmore : nextItem true text = .ok (true, middle)) :
    ∃ head others after, values = head :: others ∧ item middle = .ok (head, after) := by
  have hitems : items item true (text.length + 1) text = .ok (values, rest) := h
  obtain ⟨more, middle', hmore', h⟩ := bind_apply_eq_ok_iff.1 hitems
  rw [hmore] at hmore'
  cases hmore'
  obtain ⟨head, after, hhead, h⟩ := bind_apply_eq_ok_iff.1 h
  obtain ⟨others, _, -, h⟩ := bind_apply_eq_ok_iff.1 h
  cases h
  exact ⟨head, others, after, rfl, hhead⟩

end Json.Read

/-- A rule file in an array has a list of entries for its first item. -/
theorem RuleConfig.exists_first_of_elements {draft : Option (List RuleEntry)}
    {tail rest : List Char}
    (h : Json.Read.RecordShape.arrayRest fileShape fileShape.blank 0 fileShape.fields tail =
      .ok (draft, rest)) :
    ∃ middle inner, Json.Read.nextItem true tail = .ok (true, middle) ∧
      middle.dropWhile Json.isBlank = '[' :: inner := by
  obtain ⟨_, after, helement, -⟩ := Json.Read.bind_apply_eq_ok_iff.1
    ((congrFun (Json.Read.RecordShape.arrayRest_cons ..) tail).symm.trans h)
  obtain ⟨middle, hmore, hfill⟩ := Json.Read.RecordShape.elementStep_eq_ok_iff.1 helement
  obtain ⟨entries, _, hentries, -⟩ := Json.Read.bind_apply_eq_ok_iff.1 hfill
  obtain ⟨inner, hinner, -⟩ := Json.Read.listOf_eq_ok_iff.1 hentries
  exact ⟨middle, inner, hmore, hinner⟩

/-- What a rule file says is not accepted as target data: it is an object, or an array whose first
item is an array. -/
theorem RuleConfig.not_accepts_of_parse {text : String} {entries : List RuleEntry}
    {value : Json.Value} (hentries : parse text = .ok entries)
    (hvalue : Json.Value.parse text = .ok value) : ¬ TargetForm.schema.Accepts value := by
  intro haccepts
  rw [TargetForm.schema, TargetForm.accepts_list_iff] at haccepts
  obtain ⟨items, rfl, hitems⟩ := haccepts
  obtain ⟨rest, hfile, -⟩ := Json.readAll_eq_ok_iff.1 hentries
  obtain ⟨rest', hread, -⟩ := Json.readAll_eq_ok_iff.1 hvalue
  rcases Json.Read.RecordShape.read_eq_ok_iff.1 hfile with
    ⟨tail, draft, htail, -⟩ | ⟨tail, draft, htail, hdraft, -⟩
  · obtain ⟨members, hmembers⟩ := Json.Read.value_of_brace hread htail
    cases hmembers
  · obtain ⟨items', hsame, hlist⟩ := Json.Read.value_of_bracket hread htail
    cases hsame
    obtain ⟨middle, inner, hmore, hinner⟩ := exists_first_of_elements hdraft
    obtain ⟨head, others, after, rfl, hhead⟩ := Json.Read.exists_cons_of_list hlist hmore
    obtain ⟨inside, rfl, -⟩ := Json.Read.value_of_bracket hhead hinner
    -- an array is no record, so the list is refused for its first item
    obtain ⟨members, -, -, hobject, -⟩ :=
      TargetForm.accepts_recordSchema_iff.1 (hitems _ List.mem_cons_self)
    cases hobject

/-- A name that an entry gives leads back to the rule file, or to a file that says the same. -/
def NamesOwnFile (system : FileSystem) (config named : String) : Prop :=
  system.readText (Path.join (Path.parent config) named) = system.readText config

/-- A rule file that is named as target data does not load. -/
theorem NamesOwnFile.exists_load_eq_error {config named text : String} {entries : List RuleEntry}
    (h : NamesOwnFile system config named) (hread : system.readText config = .ok text)
    (hparse : RuleConfig.parse text = .ok entries) :
    ∃ cause, ClassTarget.load system (Path.join (Path.parent config) named) = .error cause := by
  rw [ClassTarget.load_of_readText (h.trans hread)]
  cases hvalue : Json.Value.parse text with
  | error cause => exact ⟨_, by rw [ClassTarget.parseAll, hvalue]; rfl⟩
  | ok value =>
      rw [ClassTarget.parseAll_of_parse hvalue]
      rcases ClassTarget.fromValue_cases value (Path.join (Path.parent config) named) with
        ⟨-, haccepts, -⟩ | ⟨-, -, hfault⟩
      · exact absurd haccepts (RuleConfig.not_accepts_of_parse hparse hvalue)
      · exact ⟨_, hfault⟩

/-! ## Entries that load alike -/

/-- Two outcomes are alike if both are the same value, or both are errors that are related. -/
def Alike {ε α : Type} (related : ε → ε → Prop) (first second : Except ε α) : Prop :=
  (∃ value, first = .ok value ∧ second = .ok value) ∨
    ∃ cause cause', first = .error cause ∧ second = .error cause' ∧ related cause cause'

theorem Alike.refl {ε α : Type} {related : ε → ε → Prop} (hrefl : ∀ cause, related cause cause)
    (outcome : Except ε α) : Alike related outcome outcome := by
  cases outcome with
  | error cause => exact .inr ⟨cause, cause, rfl, rfl, hrefl cause⟩
  | ok value => exact .inl ⟨value, rfl, rfl⟩

namespace RuleEntry

/-- Entries that differ in where their targets come from become the same rule or fail in the same
check, if their targets load alike. -/
theorem load_alike {first second : FileSystem} {entry : RuleEntry} {source : TargetSource}
    {related : EntryError → EntryError → Prop} (hrefl : ∀ cause, related cause cause)
    (h : Alike (fun cause cause' => related (.targets cause) (.targets cause'))
      (entry.loadTargets first base)
      (({ entry with targets := source } : RuleEntry).loadTargets second base)) :
    Alike related (entry.load first base)
      (({ entry with targets := source } : RuleEntry).load second base) := by
  unfold load
  -- the checks in front of the targets and behind them are those of the same entry
  cases hdescriptor : validateDescriptor entry.descriptor with
  | error fault => exact .inr ⟨_, _, rfl, rfl, hrefl _⟩
  | ok checked =>
      rcases h with ⟨targets, hfirst, hsecond⟩ | ⟨cause, cause', hfirst, hsecond, hrelated⟩
      · rw [hfirst, hsecond]
        exact Alike.refl hrefl _
      · rw [hfirst, hsecond]
        exact .inr ⟨_, _, rfl, rfl, hrelated⟩

end RuleEntry

namespace RuleSet

/-- Entries that load alike one by one make the same rules, or stop at the same position with
errors that are related there. -/
theorem alike_of_entries {first second : FileSystem} {entries others : List RuleEntry}
    {related : Nat → EntryError → EntryError → Prop} (hlength : entries.length = others.length)
    (h : ∀ position entry other, entries[position]? = some entry →
      others[position]? = some other →
        Alike (related position) (entry.load first base) (other.load second base)) :
    (∃ rules, MadeFrom first base rules entries ∧ MadeFrom second base rules others) ∨
      ∃ position rules cause cause', StopsAt first base entries position rules cause ∧
        StopsAt second base others position rules cause' ∧ related position cause cause' := by
  -- `related` depends on the position, which is one less for the entries behind the first
  induction entries generalizing others related with
  | nil =>
      obtain rfl := List.length_eq_zero_iff.1 hlength.symm
      exact .inl ⟨[], .nil, .nil⟩
  | cons entry entries ih =>
      cases others with
      | nil => cases hlength
      | cons other others =>
          rcases h 0 entry other rfl rfl with
            ⟨rule, hfirst, hsecond⟩ | ⟨cause, cause', hfirst, hsecond, hrelated⟩
          · rw [RuleEntry.load_eq_ok_iff_becomes] at hfirst hsecond
            have hrest := ih (Nat.succ.inj hlength)
              (fun position entry other hentry hother => h (position + 1) entry other hentry hother)
            rcases hrest with
              ⟨rules, hrules, hrules'⟩ | ⟨position, rules, cause, cause', hstop, hstop', hrelated⟩
            · exact .inl ⟨rule :: rules, .cons hfirst hrules, .cons hsecond hrules'⟩
            · exact .inr ⟨_, _, _, _, hstop.cons hfirst, hstop'.cons hsecond, hrelated⟩
          · rw [RuleEntry.load_eq_error_iff] at hfirst hsecond
            exact .inr ⟨0, [], cause, cause', .intro .nil hfirst, .intro .nil hsecond, hrelated⟩

/-- Two rule files at the same path are loaded alike.  They give the same rules and log the same
events, or the same position is the first at which an entry fails, with errors that are related
and the same events by then. -/
inductive LoadAlike (first second : FileSystem) (config : String)
    (entries others : List RuleEntry) (related : Nat → EntryError → EntryError → Prop) : Prop
  | loaded (rules : RuleSet)
      (hfirst : load first config = ⟨rules.map (·.registeredEvent), .ok rules⟩)
      (hsecond : load second config = ⟨rules.map (·.registeredEvent), .ok rules⟩)
  | failed (position : Nat) (rules : RuleSet) (cause cause' : EntryError)
      (hstop : StopsAt first (Path.parent config) entries position rules cause)
      (hstop' : StopsAt second (Path.parent config) others position rules cause')
      (hrelated : related position cause cause')
      (hfirst : load first config =
        ⟨rules.map (·.registeredEvent), .error (.entry config cause)⟩)
      (hsecond : load second config =
        ⟨rules.map (·.registeredEvent), .error (.entry config cause')⟩)

/-- Rule files whose entries load alike one by one are loaded alike. -/
theorem loadAlike_of_entries {first second : FileSystem} {config text text' : String}
    {entries others : List RuleEntry} {related : Nat → EntryError → EntryError → Prop}
    (htext : first.readText config = .ok text) (htext' : second.readText config = .ok text')
    (hparse : RuleConfig.parse text = .ok entries) (hparse' : RuleConfig.parse text' = .ok others)
    (hlength : entries.length = others.length)
    (h : ∀ position entry other, entries[position]? = some entry →
      others[position]? = some other →
        Alike (related position) (entry.load first (Path.parent config))
          (other.load second (Path.parent config))) :
    LoadAlike first second config entries others related := by
  rcases alike_of_entries hlength h with
    ⟨rules, hrules, hrules'⟩ | ⟨position, rules, cause, cause', hstop, hstop', hrelated⟩
  · exact .loaded rules (Loads.load_eq ⟨text, entries, htext, hparse, hrules⟩)
      (Loads.load_eq ⟨text', others, htext', hparse', hrules'⟩)
  · exact .failed position rules cause cause' hstop hstop' hrelated
      (LoadFault.entry htext hparse hstop).load_eq
      (LoadFault.entry htext' hparse' hstop').load_eq

/-! ## Targets that move to a file -/

/-- Two trees of files with one rule file each, at the same path.  In the first one an entry has
its targets in place; in the second one it names a file that holds them.  What the other entries
name says the same in both trees, unless they name the rule file itself. -/
structure TargetsMoved (first second : FileSystem) (config : String) (entries : List RuleEntry)
    (index : Nat) (value : Json.Value) (path firstText secondText : String) : Prop where
  first_eq : first.readText config = .ok firstText
  second_eq : second.readText config = .ok secondText
  moved : ∃ text, second.readText (Path.join (Path.parent config) path) = .ok text ∧
    Json.Value.parse text = .ok value
  others : ∀ (position : Nat) (other : RuleEntry) (named : String), position ≠ index →
    entries[position]? = some other → other.targets = .path named →
      first.readText (Path.join (Path.parent config) named) =
          second.readText (Path.join (Path.parent config) named) ∨
        NamesOwnFile first config named ∧ NamesOwnFile second config named

/-- Two faults of the entry at a position that come from the same check.  They are the same, but
for the source that is named where the targets have moved, and but for what the rule file says
where another entry takes that file as its target data. -/
inductive SameFault (first second : FileSystem) (config : String) (entries : List RuleEntry)
    (index : Nat) (path : String) : Nat → EntryError → EntryError → Prop
  | same (position : Nat) (cause : EntryError) :
      SameFault first second config entries index path position cause cause
  | moved {entry : RuleEntry} (faults : List FormFault) (hentry : entries[index]? = some entry) :
      SameFault first second config entries index path index
        (.targets (.invalid entry.name faults))
        (.targets (.invalid (Path.join (Path.parent config) path) faults))
  | ownFile {position : Nat} {other : RuleEntry} {named : String} {cause cause' : TargetError}
      (hne : position ≠ index) (hother : entries[position]? = some other)
      (hnamed : other.targets = .path named) (hown : NamesOwnFile first config named)
      (hown' : NamesOwnFile second config named)
      (hcause : other.loadTargets first (Path.parent config) = .error cause)
      (hcause' : other.loadTargets second (Path.parent config) = .error cause') :
      SameFault first second config entries index path position (.targets cause) (.targets cause')

/-- What is said about the fault at a position: the same in both cases, or the same but for the
source in the first text, or the entry there takes the rule file as its target data. -/
inductive SameTexts (first second : FileSystem) (config : String) (entries : List RuleEntry)
    (index : Nat) (path : String) : Nat → List String → List String → Prop
  | same (position : Nat) (texts : List String) :
      SameTexts first second config entries index path position texts texts
  | moved {entry : RuleEntry} (detail : String) (hentry : entries[index]? = some entry) :
      SameTexts first second config entries index path index
        ["invalid target data in " ++ entry.name, detail]
        ["invalid target data in " ++ Path.join (Path.parent config) path, detail]
  | ownFile {position : Nat} {other : RuleEntry} {named : String} (texts texts' : List String)
      (hne : position ≠ index) (hother : entries[position]? = some other)
      (hnamed : other.targets = .path named) (hown : NamesOwnFile first config named)
      (hown' : NamesOwnFile second config named) :
      SameTexts first second config entries index path position texts texts'

section

variable {first second : FileSystem} {config : String} {entries : List RuleEntry} {index : Nat}
  {entry : RuleEntry} {value : Json.Value} {path firstText secondText : String}

theorem SameFault.sameTexts {position : Nat} {cause cause' : EntryError}
    (h : SameFault first second config entries index path position cause cause') :
    SameTexts first second config entries index path position cause.failure.texts
      cause'.failure.texts := by
  cases h with
  | same position cause => exact .same position _
  | moved faults hentry => exact .moved _ hentry
  | ownFile hne hother hnamed hown hown' => exact .ownFile _ _ hne hother hnamed hown hown'

/-- The entry whose targets have moved loads alike, or its targets are refused by the same check. -/
theorem TargetsMoved.alike_moved
    (h : TargetsMoved first second config entries index value path firstText secondText)
    (hentry : entries[index]? = some entry) :
    Alike (SameFault first second config entries index path index)
      (({ entry with targets := .inline value } : RuleEntry).load first (Path.parent config))
      (({ entry with targets := .path path } : RuleEntry).load second (Path.parent config)) := by
  refine RuleEntry.load_alike (SameFault.same index) ?_
  obtain ⟨text, htext, hvalue⟩ := h.moved
  rw [RuleEntry.loadTargets_of_inline rfl, RuleEntry.loadTargets_of_path rfl,
    ClassTarget.load_of_readText htext, ClassTarget.parseAll_of_parse hvalue]
  rcases ClassTarget.fromValue_source value entry.name (Path.join (Path.parent config) path) with
    ⟨targets, hok, hok'⟩ | ⟨faults, hfault, hfault'⟩
  · exact .inl ⟨targets, hok, hok'⟩
  · exact .inr ⟨_, _, hfault, hfault', .moved faults hentry⟩

/-- The other entries load alike, or take the rule file itself as their target data. -/
theorem TargetsMoved.alike_other
    (h : TargetsMoved first second config entries index value path firstText secondText)
    (hfirst : ∃ entries, RuleConfig.parse firstText = .ok entries)
    (hsecond : ∃ entries, RuleConfig.parse secondText = .ok entries)
    {position : Nat} {other : RuleEntry} (hne : position ≠ index)
    (hother : entries[position]? = some other) :
    Alike (SameFault first second config entries index path position)
      (other.load first (Path.parent config)) (other.load second (Path.parent config)) := by
  have hsame : ∀ outcome : Except TargetError (List ClassTarget),
      Alike (fun cause cause' => SameFault first second config entries index path position
        (.targets cause) (.targets cause')) outcome outcome :=
    Alike.refl fun _ => .same position _
  refine RuleEntry.load_alike (SameFault.same position) ?_
  show Alike _ (other.loadTargets first _) (other.loadTargets second _)
  cases hnamed : other.targets with
  | inline given =>
      rw [RuleEntry.loadTargets_of_inline hnamed, RuleEntry.loadTargets_of_inline hnamed]
      exact hsame _
  | path named =>
      have hload := RuleEntry.loadTargets_of_path hnamed
      rcases h.others position other named hne hother hnamed with hread | ⟨hown, hown'⟩
      · rw [hload, hload, ClassTarget.load, ClassTarget.load, hread]
        exact hsame _
      · obtain ⟨_, hparse⟩ := hfirst
        obtain ⟨_, hparse'⟩ := hsecond
        obtain ⟨cause, hcause⟩ := hown.exists_load_eq_error h.first_eq hparse
        obtain ⟨cause', hcause'⟩ := hown'.exists_load_eq_error h.second_eq hparse'
        rw [← hload] at hcause hcause'
        exact .inr ⟨cause, cause', hcause, hcause',
          .ownFile hne hother hnamed hown hown' hcause hcause'⟩

/-- Rule files with the targets of an entry in place and in a file are loaded alike. -/
theorem TargetsMoved.load_alike
    (h : TargetsMoved first second config entries index value path firstText secondText)
    (hentry : entries[index]? = some entry)
    (hfirst : RuleConfig.parse firstText =
      .ok (entries.set index { entry with targets := .inline value }))
    (hsecond : RuleConfig.parse secondText =
      .ok (entries.set index { entry with targets := .path path })) :
    LoadAlike first second config (entries.set index { entry with targets := .inline value })
      (entries.set index { entry with targets := .path path })
      (SameFault first second config entries index path) := by
  have hbound : index < entries.length := (List.getElem?_eq_some_iff.1 hentry).1
  refine loadAlike_of_entries h.first_eq h.second_eq hfirst hsecond
    (by rw [List.length_set, List.length_set]) fun position given given' hgiven hgiven' => ?_
  -- only the entry at `index` differs between the two files
  by_cases hposition : index = position
  · subst hposition
    rw [List.getElem?_set_self hbound, Option.some.injEq] at hgiven hgiven'
    rw [← hgiven, ← hgiven']
    exact h.alike_moved hentry
  · rw [List.getElem?_set_ne hposition] at hgiven hgiven'
    rw [hgiven, Option.some.injEq] at hgiven'
    rw [← hgiven']
    exact h.alike_other ⟨_, hfirst⟩ ⟨_, hsecond⟩ (Ne.symm hposition) hgiven

end

end RuleSet

/-- The targets of an entry have a place in the text of a rule file.  A value that is no text may
stand there, or the path of a file that holds it, and this makes no difference: both rule files are
loaded with the same rules, or both fail at the same entry in the same check.  The two errors and
their texts are the same but for the source that is named, unless the entry that fails is another
one that takes the rule file itself as its target data. -/
theorem targets_load_alike_in_place_and_from_file (text : String) (entries : List RuleEntry)
    (index : Nat) (entry : RuleEntry) (hparse : RuleConfig.parse text = .ok entries)
    (hentry : entries[index]? = some entry) :
    ∃ front given back : String, text = front ++ given ++ back ∧
      RuleConfig.targets (given ++ back).toList = .ok (entry.targets, back.toList) ∧
      ∀ (data name path : String) (value : Json.Value),
        Json.readAll (Json.Read.value RuleConfig.targetNesting) data = .ok value →
        (∀ text, value ≠ .string text) →
        Json.readAll (Json.Read.value RuleConfig.targetNesting) name = .ok (.string path) →
        Json.Value.parse data = .ok value ∧
        RuleConfig.parse (front ++ data ++ back) =
          .ok (entries.set index { entry with targets := .inline value }) ∧
        RuleConfig.parse (front ++ name ++ back) =
          .ok (entries.set index { entry with targets := .path path }) ∧
        ∀ (first second : FileSystem) (config : String),
          RuleSet.TargetsMoved first second config entries index value path
            (front ++ data ++ back) (front ++ name ++ back) →
          RuleSet.LoadAlike first second config
            (entries.set index { entry with targets := .inline value })
            (entries.set index { entry with targets := .path path })
            (RuleSet.SameFault first second config entries index path) ∧
          ∀ position cause cause',
            RuleSet.SameFault first second config entries index path position cause cause' →
            RuleSet.SameTexts first second config entries index path position
              cause.failure.texts cause'.failure.texts := by
  obtain ⟨front, given, back, htext, hgiven, hplace⟩ :=
    RuleConfig.exists_targets_place hparse hentry
  refine ⟨front, given, back, htext, hgiven, fun data name path value hdata hvalue hname => ?_⟩
  have hinline := hplace data _ (RuleConfig.readAll_targets_of_value hdata hvalue)
  have hpath := hplace name _ (RuleConfig.readAll_targets_of_string hname)
  exact ⟨RuleConfig.valueParse_of_readAll hdata, hinline, hpath,
    fun first second config hmoved => ⟨hmoved.load_alike hentry hinline hpath,
      fun position cause cause' hfault => hfault.sameTexts⟩⟩

/-- The text of targets with one class. -/
def oneTargetText : String := "[\x7b\"class\":\"A\",\"methods\":[]\x7d]"

theorem readAll_oneTargetText :
    Json.readAll (Json.Read.value RuleConfig.targetNesting) oneTargetText =
      .ok (.array [.object [("class", .string "A"), ("methods", .array [])]]) := by
  decide +kernel

theorem readAll_quotedPath :
    Json.readAll (Json.Read.value RuleConfig.targetNesting) "\"t\"" = .ok (.string "t") := by
  decide +kernel

/-- The targets of the only entry of a rule file, in place and in a file of their own. -/
theorem targets_load_alike_in_place_and_from_file_one_entry :
    let rule : Rule := ⟨"a", .static, "m", "()V", [⟨"A", []⟩], .rename "n" none⟩
    ∃ front back : String,
      let first : FileSystem :=
        ⟨.directory [("r", .file (Utf8.bytes (front ++ oneTargetText ++ back)))], []⟩
      let second : FileSystem :=
        ⟨.directory [("r", .file (Utf8.bytes (front ++ "\"t\"" ++ back))),
          ("t", .file (Utf8.bytes oneTargetText))], []⟩
      RuleSet.load first "r" = ⟨[.ruleRegistered "a" 1], .ok [rule]⟩ ∧
      RuleSet.load second "r" = ⟨[.ruleRegistered "a" 1], .ok [rule]⟩ := by
  intro rule
  obtain ⟨front, given, back, -, -, hmove⟩ :=
    targets_load_alike_in_place_and_from_file oneEntryText _ 0 _ parse_oneEntryText rfl
  obtain ⟨hvalue, hinline, hpath, hload⟩ :=
    hmove oneTargetText "\"t\"" "t" _ readAll_oneTargetText (fun _ => nofun) readAll_quotedPath
  refine ⟨front, back, ?_⟩
  intro first second
  have hbase : Path.parent "r" = "" := by decide +kernel
  have hfirst : first.readText "r" = .ok (front ++ oneTargetText ++ back) :=
    FileSystem.readText_of_read rfl
  have hloads : RuleSet.Loads first "r" [rule] := by
    refine ⟨_, _, hfirst, hinline, .cons ?_ .nil⟩
    exact ⟨by decide +kernel, rfl, fun _ => nofun, rfl⟩
  obtain ⟨halike, -⟩ := hload first second "r" {
    first_eq := hfirst
    second_eq := FileSystem.readText_of_read rfl
    moved := ⟨oneTargetText, by rw [hbase]; exact FileSystem.readText_of_read rfl, hvalue⟩
    others := fun position other named hne hother => by
      obtain ⟨position, rfl⟩ := Nat.exists_eq_succ_of_ne_zero hne
      cases hother }
  rcases halike with ⟨rules, hrules, hrules'⟩ | ⟨position, rules, cause, cause', -, -, -, herror, -⟩
  · have hsame := congrArg Logged.outcome (hloads.load_eq.symm.trans hrules)
    cases hsame
    exact ⟨hloads.load_eq, hrules'⟩
  · have hsame := congrArg Logged.outcome (hloads.load_eq.symm.trans herror)
    cases hsame

/-! ## A rule file that is named as target data -/

/-- Two entries, of which the second one names the file `r` as its target data. -/
def ownFileText (targets : String) : String :=
  "[[" ++ entryText "a" targets "null" ++ "," ++ entryText "b" "\"r\"" "null" ++ "]]"

/-- The entries of this file as a value. -/
def ownFileEntries (targets : Json.Value) : Json.Value :=
  let entry (name : String) (targets : Json.Value) : Json.Value :=
    .array [.string name, .string "static", .string "m", .string "()V", targets,
      .object [("rename", .array [.string "n", .null])]]
  .array [entry "a" targets, entry "b" (.string "r")]

/-- The file as `r`, with a file `t` that has no targets. -/
def ownFileTree (targets : String) : FileSystem :=
  ⟨.directory [("r", .file (Utf8.bytes (ownFileText targets))), ("t", .file (Utf8.bytes "[]"))], []⟩

/-- The first of the two entries is no record of a class. -/
def ownFileFault (targets : Json.Value) : TargetError :=
  .invalid "r" [.wrongType (ownFileEntries targets) "object"]

theorem valueParse_ownFileText_inline :
    Json.Value.parse (ownFileText "[]") = .ok (.array [ownFileEntries (.array [])]) := by
  decide +kernel

theorem valueParse_ownFileText_path :
    Json.Value.parse (ownFileText "\"t\"") = .ok (.array [ownFileEntries (.string "t")]) := by
  decide +kernel

theorem parse_ownFileText_inline : RuleConfig.parse (ownFileText "[]") = .ok [
    ⟨"a", .static, "m", "()V", .inline (.array []), .rename "n" none⟩,
    ⟨"b", .static, "m", "()V", .path "r", .rename "n" none⟩] := by
  decide +kernel

theorem parse_ownFileText_path : RuleConfig.parse (ownFileText "\"t\"") = .ok [
    ⟨"a", .static, "m", "()V", .path "t", .rename "n" none⟩,
    ⟨"b", .static, "m", "()V", .path "r", .rename "n" none⟩] := by
  decide +kernel

theorem parseAll_emptyList : ClassTarget.parseAll "[]" "t" = .ok [] :=
  toOption_eq_some_iff.1 (by decide +kernel)

/-- The first entry becomes a rule without targets, and the second one finds the rule file. -/
theorem load_ownFileTree {targets : String} {value : Json.Value} {source : TargetSource}
    (hvalue : Json.Value.parse (ownFileText targets) = .ok (.array [ownFileEntries value]))
    (hentries : RuleConfig.parse (ownFileText targets) = .ok [
      ⟨"a", .static, "m", "()V", source, .rename "n" none⟩,
      ⟨"b", .static, "m", "()V", .path "r", .rename "n" none⟩])
    (htargets : (⟨"a", .static, "m", "()V", source, .rename "n" none⟩ : RuleEntry).loadTargets
      (ownFileTree targets) "" = .ok []) :
    RuleSet.load (ownFileTree targets) "r" =
      ⟨[.ruleRegistered "a" 0], .error (.entry "r" (.targets (ownFileFault value)))⟩ := by
  let rule : Rule := ⟨"a", .static, "m", "()V", [], .rename "n" none⟩
  have hdescriptor : validateDescriptor "()V" = .ok () := by decide +kernel
  have hbase : Path.parent "r" = "" := by decide +kernel
  have hread : (ownFileTree targets).readText "r" = .ok (ownFileText targets) :=
    FileSystem.readText_of_read rfl
  have hown : ClassTarget.load (ownFileTree targets) "r" = .error (ownFileFault value) := by
    rw [ClassTarget.load_of_readText hread, ClassTarget.parseAll_of_parse hvalue]
    rfl
  have hstop : RuleSet.StopsAt (ownFileTree targets) (Path.parent "r")
      ([⟨"a", .static, "m", "()V", source, .rename "n" none⟩] ++
        ⟨"b", .static, "m", "()V", .path "r", .rename "n" none⟩ :: []) 1 [rule]
      (.targets (ownFileFault value)) := by
    rw [hbase]
    exact .intro (.cons ⟨hdescriptor, htargets, fun _ => nofun, rfl⟩ .nil)
      (.targets hdescriptor hown)
  exact (RuleSet.LoadFault.entry hread hentries hstop).load_eq

/-- An entry that names the rule file as its target data is refused in both cases, with the name
of the rule file, but the message shows what the rule file says: the targets of the other entry. -/
theorem messages_differ_if_own_file_is_named :
    let cause (targets : Json.Value) : RuleError := .entry "r" (.targets (ownFileFault targets))
    RuleSet.load (ownFileTree "[]") "r" =
      ⟨[.ruleRegistered "a" 0], .error (cause (.array []))⟩ ∧
    RuleSet.load (ownFileTree "\"t\"") "r" =
      ⟨[.ruleRegistered "a" 0], .error (cause (.string "t"))⟩ ∧
    (cause (.array [])).failure.texts.take 2 = (cause (.string "t")).failure.texts.take 2 ∧
    (cause (.array [])).failure.texts ≠ (cause (.string "t")).failure.texts := by
  intro cause
  have hfile : ClassTarget.load (ownFileTree "\"t\"") "t" = .ok [] := by
    have hread : (ownFileTree "\"t\"").readText "t" = .ok "[]" := FileSystem.readText_of_read rfl
    rw [ClassTarget.load_of_readText hread, parseAll_emptyList]
  exact ⟨load_ownFileTree valueParse_ownFileText_inline parse_ownFileText_inline rfl,
    load_ownFileTree valueParse_ownFileText_path parse_ownFileText_path hfile,
    by decide +kernel, by decide +kernel⟩

end CallRedirect
