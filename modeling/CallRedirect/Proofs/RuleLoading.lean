import CallRedirect.Proofs.LoadedRules
import CallRedirect.Proofs.TargetData
import CallRedirect.Proofs.Utf8Reading
import Mathlib.Data.List.Forall2

/-!
# Loading a rule file

A rule file is loaded entry by entry, and the first fault ends the loading.

* `RuleEntry.Becomes` is an entry that passes its three checks, with the rule that it becomes,
  and `RuleEntry.FirstFault` is the first of the three that fails.  Every entry does one or the
  other (`RuleEntry.load_eq_ok_iff_becomes`, `RuleEntry.load_eq_error_iff`).
* `RuleSet.ofEntries_append` is the run over entries that become rules: each leaves one event
  behind, whatever stands behind them.
* `RuleSet.StopsAt` is the position of the first entry that does not become a rule, and
  `RuleSet.LoadFault` says how a whole file can fail and what was logged by then.

The text of a rule file is read as a whole before any entry is looked at, so a fault of its text
or of its shape leaves no event, wherever it stands.
-/

namespace CallRedirect

namespace Logged

variable {ε α β : Type}

theorem ofExcept_ok_bind (value : α) (next : α → Logged ε β) :
    (ofExcept (.ok value) >>= next) = next value := rfl

theorem ofExcept_error_bind (cause : ε) (next : α → Logged ε β) :
    (ofExcept (.error cause) >>= next) = ⟨[], .error cause⟩ := rfl

end Logged

variable {system : FileSystem} {base path : String}

/-! ## One entry -/

namespace RuleEntry

/-- An entry passes the check of its descriptor, its targets load, and the descriptor of its
replacement passes if there is one.  The rule has the entry's own texts and these targets. -/
structure Becomes (system : FileSystem) (base : String) (entry : RuleEntry) (rule : Rule) :
    Prop where
  descriptor : validateDescriptor entry.descriptor = .ok ()
  targets : entry.loadTargets system base = .ok rule.targets
  replacement : ∀ descriptor, entry.redirect.descriptor? = some descriptor →
    validateDescriptor descriptor = .ok ()
  rule_eq : rule =
    ⟨entry.name, entry.kind, entry.method, entry.descriptor, rule.targets, entry.redirect⟩

/-- The first check that an entry fails: that of its descriptor, the loading of its targets, or
that of the descriptor of its replacement. -/
inductive FirstFault (system : FileSystem) (base : String) (entry : RuleEntry) :
    EntryError → Prop
  | descriptor {cause : MalformedDescriptor}
      (hdescriptor : validateDescriptor entry.descriptor = .error cause) :
      FirstFault system base entry (.descriptor entry.name cause)
  | targets {cause : TargetError}
      (hdescriptor : validateDescriptor entry.descriptor = .ok ())
      (htargets : entry.loadTargets system base = .error cause) :
      FirstFault system base entry (.targets cause)
  | replacement {targets : List ClassTarget} {descriptor : String} {cause : MalformedDescriptor}
      (hdescriptor : validateDescriptor entry.descriptor = .ok ())
      (htargets : entry.loadTargets system base = .ok targets)
      (hgiven : entry.redirect.descriptor? = some descriptor)
      (hreplacement : validateDescriptor descriptor = .error cause) :
      FirstFault system base entry (.replacement entry.name cause)

theorem load_eq_ok_iff_becomes {entry : RuleEntry} {rule : Rule} :
    entry.load system base = .ok rule ↔ entry.Becomes system base rule := by
  rw [load_eq_ok_iff]
  constructor
  · rintro ⟨hdescriptor, targets, htargets, hreplacement, rfl⟩
    exact ⟨hdescriptor, htargets, checkReplacement_eq_ok_iff.1 hreplacement, rfl⟩
  · intro h
    exact ⟨h.descriptor, rule.targets, h.targets, checkReplacement_eq_ok_iff.2 h.replacement,
      h.rule_eq⟩

theorem checkReplacement_eq_error_iff {entry : RuleEntry} {cause : MalformedDescriptor} :
    entry.checkReplacement = .error cause ↔
      ∃ descriptor, entry.redirect.descriptor? = some descriptor ∧
        validateDescriptor descriptor = .error cause := by
  unfold checkReplacement
  cases entry.redirect.descriptor? with
  | none => simp
  | some given => simp

/-- An entry fails with the first check that it fails. -/
theorem load_eq_error_iff {entry : RuleEntry} {cause : EntryError} :
    entry.load system base = .error cause ↔ entry.FirstFault system base cause := by
  unfold load
  constructor
  · -- follow the checks in their order, up to the one that fails
    intro h
    cases hdescriptor : validateDescriptor entry.descriptor with
    | error fault =>
        rw [hdescriptor] at h
        cases h
        exact .descriptor hdescriptor
    | ok checked =>
        rw [hdescriptor] at h
        cases htargets : entry.loadTargets system base with
        | error fault =>
            rw [htargets] at h
            cases h
            exact .targets hdescriptor htargets
        | ok targets =>
            rw [htargets] at h
            cases hreplacement : entry.checkReplacement with
            | error fault =>
                rw [hreplacement] at h
                cases h
                obtain ⟨descriptor, hgiven, hfault⟩ := checkReplacement_eq_error_iff.1 hreplacement
                exact .replacement hdescriptor htargets hgiven hfault
            | ok checkedToo =>
                rw [hreplacement] at h
                cases h
  · intro h
    cases h with
    | descriptor hdescriptor =>
        rw [hdescriptor]
        rfl
    | targets hdescriptor htargets =>
        rw [hdescriptor, htargets]
        rfl
    | replacement hdescriptor htargets hgiven hreplacement =>
        rw [hdescriptor, htargets, checkReplacement_eq_error_iff.2 ⟨_, hgiven, hreplacement⟩]
        rfl

/-- Targets that load have names and identifiers that are not empty, wherever they come from. -/
theorem ne_empty_of_loadTargets {entry : RuleEntry} {targets : List ClassTarget}
    (h : entry.loadTargets system base = .ok targets) :
    ∀ target ∈ targets, target.className ≠ "" ∧ ∀ method ∈ target.methods, method ≠ "" := by
  unfold loadTargets at h
  cases hsource : entry.targets with
  | inline value =>
      rw [hsource] at h
      exact ClassTarget.ne_empty_of_fromValue h
  | path given =>
      rw [hsource] at h
      obtain ⟨text, -, hparse⟩ := bind_eq_ok_iff.1 h
      obtain ⟨value, -, hvalue⟩ := bind_eq_ok_iff.1 hparse
      exact ClassTarget.ne_empty_of_fromValue hvalue

end RuleEntry

/-! ## The entries of a file -/

namespace RuleSet

/-- The rules of entries that all become rules, one for each and in order. -/
def MadeFrom (system : FileSystem) (base : String) (rules : RuleSet) (entries : List RuleEntry) :
    Prop :=
  List.Forall₂ (fun rule entry => entry.Becomes system base rule) rules entries

/-- An entry that becomes a rule leaves the event of it, and the loading goes on. -/
theorem ofEntries_cons_of_becomes {entry : RuleEntry} {rule : Rule}
    (h : entry.Becomes system base rule) (entries : List RuleEntry) :
    ofEntries system base (entry :: entries) =
      ⟨rule.registeredEvent :: (ofEntries system base entries).events,
        (ofEntries system base entries).outcome.map (rule :: ·)⟩ := by
  rw [ofEntries, RuleEntry.load_eq_ok_iff_becomes.2 h]
  generalize ofEntries system base entries = rest
  obtain ⟨events, outcome⟩ := rest
  cases outcome with
  | error cause => rfl
  | ok rules =>
      show (⟨rule.registeredEvent :: (events ++ []), .ok (rule :: rules)⟩ : Logged _ _) = _
      rw [List.append_nil]
      rfl

/-- An entry that does not become a rule ends the loading. -/
theorem ofEntries_cons_of_firstFault {entry : RuleEntry} {cause : EntryError}
    (h : entry.FirstFault system base cause) (entries : List RuleEntry) :
    ofEntries system base (entry :: entries) = ⟨[], .error cause⟩ := by
  rw [ofEntries, RuleEntry.load_eq_error_iff.2 h]
  rfl

/-- Entries that become rules leave one event each, whatever stands behind them. -/
theorem ofEntries_append {rules : RuleSet} {before : List RuleEntry}
    (h : MadeFrom system base rules before)
    (after : List RuleEntry) :
    ofEntries system base (before ++ after) =
      ⟨rules.map (·.registeredEvent) ++ (ofEntries system base after).events,
        (ofEntries system base after).outcome.map (rules ++ ·)⟩ := by
  -- along the entries in front; what follows is run once, behind the last of them
  induction h with
  | nil =>
      show ofEntries system base after = _
      generalize ofEntries system base after = rest
      obtain ⟨events, outcome⟩ := rest
      cases outcome <;> rfl
  | cons hhere _ ih =>
      rw [List.cons_append, ofEntries_cons_of_becomes hhere, ih]
      cases (ofEntries system base after).outcome <;> rfl

theorem ofEntries_of_becomes {rules : RuleSet} {entries : List RuleEntry}
    (h : MadeFrom system base rules entries) :
    ofEntries system base entries = ⟨rules.map (·.registeredEvent), .ok rules⟩ := by
  have hrun := ofEntries_append h []
  rw [List.append_nil] at hrun
  rw [hrun]
  simp [ofEntries, Except.map, pure]

/-- The entry at a position is the first that does not become a rule, and `rules` are those of
the entries in front of it. -/
inductive StopsAt (system : FileSystem) (base : String) :
    List RuleEntry → Nat → RuleSet → EntryError → Prop
  | intro {before after : List RuleEntry} {entry : RuleEntry} {rules : RuleSet}
      {cause : EntryError}
      (hbefore : MadeFrom system base rules before)
      (hfault : entry.FirstFault system base cause) :
      StopsAt system base (before ++ entry :: after) before.length rules cause

theorem StopsAt.cons {entry : RuleEntry} {entries : List RuleEntry} {position : Nat} {rule : Rule}
    {rules : RuleSet} {cause : EntryError} (hentry : entry.Becomes system base rule)
    (h : StopsAt system base entries position rules cause) :
    StopsAt system base (entry :: entries) (position + 1) (rule :: rules) cause := by
  cases h with
  | intro hbefore hfault => exact .intro (.cons hentry hbefore) hfault

theorem StopsAt.ofEntries_eq {entries : List RuleEntry} {position : Nat} {rules : RuleSet}
    {cause : EntryError} (h : StopsAt system base entries position rules cause) :
    ofEntries system base entries = ⟨rules.map (·.registeredEvent), .error cause⟩ := by
  cases h with
  | intro hbefore hfault =>
      rw [ofEntries_append hbefore, ofEntries_cons_of_firstFault hfault, List.append_nil]
      rfl

/-- All entries become rules, or there is a first one that does not. -/
theorem becomes_or_stopsAt (system : FileSystem) (base : String) (entries : List RuleEntry) :
    (∃ rules, MadeFrom system base rules entries) ∨
      ∃ position rules cause, StopsAt system base entries position rules cause := by
  induction entries with
  | nil => exact .inl ⟨[], .nil⟩
  | cons entry entries ih =>
      cases hload : entry.load system base with
      | error cause =>
          exact .inr ⟨0, [], cause, .intro .nil (RuleEntry.load_eq_error_iff.1 hload)⟩
      | ok rule =>
          have hhere := RuleEntry.load_eq_ok_iff_becomes.1 hload
          rcases ih with ⟨rules, hrules⟩ | ⟨position, rules, cause, hstop⟩
          · exact .inl ⟨rule :: rules, .cons hhere hrules⟩
          · exact .inr ⟨_, _, _, hstop.cons hhere⟩

/-! ## A whole file -/

end RuleSet

/-- A file with the bytes of a text is read as this text. -/
theorem FileSystem.readText_of_read {text : String}
    (h : system.read path = .ok (Utf8.bytes text)) : system.readText path = .ok text := by
  rw [readText, h, ok_bind, Utf8.decode?_bytes]
  rfl

namespace RuleSet

/-- How a rule file fails, with what was logged by then: its text cannot be read, or is not a
list of entries, or one of its entries is the first that does not become a rule. -/
inductive LoadFault (system : FileSystem) (path : String) : RuleError → List Event → Prop
  | unreadable {cause : FileError} (htext : system.readText path = .error cause) :
      LoadFault system path (.unreadable path cause) []
  | malformed {text : String} {cause : Json.ReadError} (htext : system.readText path = .ok text)
      (hentries : RuleConfig.parse text = .error cause) :
      LoadFault system path (.malformed path cause) []
  | entry {text : String} {entries : List RuleEntry} {position : Nat} {rules : RuleSet}
      {cause : EntryError} (htext : system.readText path = .ok text)
      (hentries : RuleConfig.parse text = .ok entries)
      (hstop : StopsAt system (Path.parent path) entries position rules cause) :
      LoadFault system path (.entry path cause) (rules.map (·.registeredEvent))

/-- A rule file whose text is read goes on with its entries. -/
theorem load_of_parse {text : String} {entries : List RuleEntry}
    (htext : system.readText path = .ok text) (hentries : RuleConfig.parse text = .ok entries) :
    load system path = (ofEntries system (Path.parent path) entries).mapError (.entry path) := by
  rw [load, htext, mapError_ok, Logged.ofExcept_ok_bind, hentries, mapError_ok,
    Logged.ofExcept_ok_bind]

theorem LoadFault.load_eq {cause : RuleError} {events : List Event}
    (h : LoadFault system path cause events) : load system path = ⟨events, .error cause⟩ := by
  cases h with
  | unreadable htext => rw [load, htext, mapError_error, Logged.ofExcept_error_bind]
  | malformed htext hentries =>
      rw [load, htext, mapError_ok, Logged.ofExcept_ok_bind, hentries, mapError_error,
        Logged.ofExcept_error_bind]
  | entry htext hentries hstop =>
      rw [load_of_parse htext hentries, hstop.ofEntries_eq]
      rfl

/-- A rule file that is there, is a list of entries, and whose entries all become rules. -/
def Loads (system : FileSystem) (path : String) (rules : RuleSet) : Prop :=
  ∃ text entries, system.readText path = .ok text ∧ RuleConfig.parse text = .ok entries ∧
    MadeFrom system (Path.parent path) rules entries

theorem Loads.load_eq {rules : RuleSet} (h : Loads system path rules) :
    load system path = ⟨rules.map (·.registeredEvent), .ok rules⟩ := by
  obtain ⟨text, entries, htext, hentries, hrules⟩ := h
  rw [load_of_parse htext hentries, ofEntries_of_becomes hrules]
  rfl

/-- A rule file is loaded or has a fault. -/
theorem loads_or_loadFault (system : FileSystem) (path : String) :
    (∃ rules, Loads system path rules) ∨ ∃ cause events, LoadFault system path cause events := by
  cases htext : system.readText path with
  | error cause => exact .inr ⟨_, _, .unreadable htext⟩
  | ok text =>
      cases hentries : RuleConfig.parse text with
      | error cause => exact .inr ⟨_, _, .malformed htext hentries⟩
      | ok entries =>
          rcases becomes_or_stopsAt system (Path.parent path) entries with
            ⟨rules, hrules⟩ | ⟨position, rules, cause, hstop⟩
          · exact .inl ⟨rules, text, entries, htext, hentries, hrules⟩
          · exact .inr ⟨_, _, .entry htext hentries hstop⟩

theorem load_eq_ok_iff {rules : RuleSet} {events : List Event} :
    load system path = ⟨events, .ok rules⟩ ↔
      Loads system path rules ∧ events = rules.map (·.registeredEvent) := by
  constructor
  · intro h
    rcases loads_or_loadFault system path with ⟨others, hloads⟩ | ⟨cause, logged, hfault⟩
    · have hsame := hloads.load_eq
      rw [h] at hsame
      cases hsame
      exact ⟨hloads, rfl⟩
    · have hsame := hfault.load_eq
      rw [h] at hsame
      cases hsame
  · rintro ⟨hloads, rfl⟩
    exact hloads.load_eq

theorem load_eq_error_iff {cause : RuleError} {events : List Event} :
    load system path = ⟨events, .error cause⟩ ↔ LoadFault system path cause events := by
  constructor
  · intro h
    rcases loads_or_loadFault system path with ⟨rules, hloads⟩ | ⟨other, logged, hfault⟩
    · have hsame := hloads.load_eq
      rw [h] at hsame
      cases hsame
    · have hsame := hfault.load_eq
      rw [h] at hsame
      cases hsame
      exact hfault
  · exact LoadFault.load_eq

theorem ne_empty_of_loads {rules : RuleSet} (h : Loads system path rules) :
    ∀ rule ∈ rules, ∀ target ∈ rule.targets,
      target.className ≠ "" ∧ ∀ method ∈ target.methods, method ≠ "" := by
  obtain ⟨text, entries, -, -, hrules⟩ := h
  intro rule hrule
  obtain ⟨entry, hentry⟩ :=
    forall_exists_iff_exists_forall₂.2 ⟨entries, List.Forall₂.flip hrules⟩ rule hrule
  exact RuleEntry.ne_empty_of_loadTargets hentry.targets

end RuleSet

/-- A rule file is loaded exactly if its text is there, reads as a list of entries, and each
entry passes its checks; then there is one rule for each entry, in order, and one event for each
rule.  Otherwise the error is that of the first entry that fails, for the first of its checks
that fails, and there is one event for each entry in front of it.  The entries behind it make no
difference. -/
theorem loadRules_stops_at_first_fault (system : FileSystem) (path : String) :
    (∀ rules events, RuleSet.load system path = ⟨events, .ok rules⟩ ↔
      (∃ text entries, system.readText path = .ok text ∧ RuleConfig.parse text = .ok entries ∧
        RuleSet.MadeFrom system (Path.parent path) rules entries) ∧
      events = rules.map (·.registeredEvent)) ∧
    (∀ rules, (RuleSet.load system path).outcome = .ok rules →
      ∀ rule ∈ rules, ∀ target ∈ rule.targets,
        target.className ≠ "" ∧ ∀ method ∈ target.methods, method ≠ "") ∧
    (∀ cause events, RuleSet.load system path = ⟨events, .error cause⟩ ↔
      RuleSet.LoadFault system path cause events) ∧
    (∀ before entry rules cause, RuleSet.MadeFrom system (Path.parent path) rules before →
      RuleEntry.FirstFault system (Path.parent path) entry cause →
      ∀ after, RuleSet.ofEntries system (Path.parent path) (before ++ entry :: after) =
        ⟨rules.map (·.registeredEvent), .error cause⟩) := by
  refine ⟨fun _ _ => RuleSet.load_eq_ok_iff, ?texts, fun _ _ => RuleSet.load_eq_error_iff, ?later⟩
  case texts =>
    intro rules hrules
    have hload : RuleSet.load system path = ⟨(RuleSet.load system path).events, .ok rules⟩ := by
      rw [← hrules]
    exact RuleSet.ne_empty_of_loads (RuleSet.load_eq_ok_iff.1 hload).1
  case later =>
    intro before entry rules cause hbefore hfault after
    exact (RuleSet.StopsAt.intro hbefore hfault).ofEntries_eq

/-! ## A file that fails, and one that is loaded -/

/-- The text of an entry in the form of a list, with some targets and a descriptor. -/
def entryText (name targets descriptor : String) : String :=
  "[\"" ++ name ++ "\",\"static\",\"m\",\"()V\"," ++ targets ++
    ",\x7b\"rename\":[\"n\"," ++ descriptor ++ "]\x7d]"

/-- The text of a rule file with one entry. -/
def oneEntryText : String :=
  "[[" ++ entryText "a" "[\x7b\"class\":\"A\",\"methods\":[]\x7d]" "null" ++ "]]"

/-- The text of a rule file with three entries.  The second one has a descriptor for its
replacement that breaks off, and the targets of the third one are not there. -/
def threeEntriesText : String :=
  "[[" ++ entryText "a" "[]" "null" ++ "," ++ entryText "b" "[]" "\"()\"" ++ "," ++
    entryText "c" "\"missing\"" "null" ++ "]]"

theorem parse_oneEntryText : RuleConfig.parse oneEntryText = .ok [⟨"a", .static, "m", "()V",
    .inline (.array [.object [("class", .string "A"), ("methods", .array [])]]),
    .rename "n" none⟩] := by
  decide +kernel

theorem parse_threeEntriesText : RuleConfig.parse threeEntriesText = .ok [
    ⟨"a", .static, "m", "()V", .inline (.array []), .rename "n" none⟩,
    ⟨"b", .static, "m", "()V", .inline (.array []), .rename "n" (some "()")⟩,
    ⟨"c", .static, "m", "()V", .path "missing", .rename "n" none⟩] := by
  decide +kernel

/-- The second entry fails in the last of its checks, so the missing file of the third one is not
noticed.  The file with one entry is loaded. -/
theorem loadRules_stops_at_second_entry :
    let system : FileSystem := ⟨.directory [("one", .file (Utf8.bytes oneEntryText)),
      ("three", .file (Utf8.bytes threeEntriesText))], []⟩
    let rule (targets : List ClassTarget) : Rule :=
      ⟨"a", .static, "m", "()V", targets, .rename "n" none⟩
    let good : RuleEntry := ⟨"a", .static, "m", "()V", .inline (.array []), .rename "n" none⟩
    let bad : RuleEntry := ⟨"b", .static, "m", "()V", .inline (.array []), .rename "n" (some "()")⟩
    let fault : EntryError := .replacement "b" ⟨"()", .unexpectedEnd⟩
    RuleSet.load system "one" = ⟨[.ruleRegistered "a" 1], .ok [rule [⟨"A", []⟩]]⟩ ∧
    (∀ target ∈ (rule [⟨"A", []⟩]).targets, target.className ≠ "") ∧
    RuleSet.load system "three" = ⟨[.ruleRegistered "a" 0], .error (.entry "three" fault)⟩ ∧
    ∀ after, RuleSet.ofEntries system "" ([good] ++ bad :: after) =
      ⟨[.ruleRegistered "a" 0], .error fault⟩ := by
  intro system rule good bad fault
  let missing : RuleEntry := ⟨"c", .static, "m", "()V", .path "missing", .rename "n" none⟩
  have hdescriptor : validateDescriptor "()V" = .ok () := by decide +kernel
  have honeBase : Path.parent "one" = "" := by decide +kernel
  have hthreeBase : Path.parent "three" = "" := by decide +kernel
  have honeText : system.readText "one" = .ok oneEntryText :=
    FileSystem.readText_of_read rfl
  have hthreeText : system.readText "three" = .ok threeEntriesText :=
    FileSystem.readText_of_read rfl
  obtain ⟨hloads, htexts, -, -⟩ := loadRules_stops_at_first_fault system "one"
  obtain ⟨-, -, hfaults, hlater⟩ := loadRules_stops_at_first_fault system "three"
  rw [honeBase] at hloads
  rw [hthreeBase] at hlater
  have hgood : RuleSet.MadeFrom system "" [rule []] [good] :=
    .cons ⟨hdescriptor, rfl, fun _ => nofun, rfl⟩ .nil
  have hbad : bad.FirstFault system "" fault :=
    .replacement hdescriptor rfl rfl (by decide +kernel)
  have hloaded : RuleSet.load system "one" =
      ⟨[.ruleRegistered "a" 1], .ok [rule [⟨"A", []⟩]]⟩ := by
    refine (hloads _ _).2 ⟨⟨_, _, honeText, parse_oneEntryText, .cons ?_ .nil⟩, rfl⟩
    exact ⟨hdescriptor, rfl, fun _ => nofun, rfl⟩
  have hstop : RuleSet.StopsAt system (Path.parent "three") ([good] ++ bad :: [missing]) 1 [rule []]
      fault := by
    rw [hthreeBase]
    exact .intro hgood hbad
  have hfault : RuleSet.LoadFault system "three" (.entry "three" fault)
      ([rule []].map (·.registeredEvent)) :=
    .entry hthreeText parse_threeEntriesText hstop
  refine ⟨hloaded, ?_, (hfaults _ _).2 hfault, hlater [good] bad _ fault hgood hbad⟩
  intro target htarget
  have houtcome : (RuleSet.load system "one").outcome = .ok [rule [⟨"A", []⟩]] := by rw [hloaded]
  exact (htexts _ houtcome _ List.mem_cons_self target htarget).1

end CallRedirect
