import CallRedirect.Proofs.Outcome
import CallRedirect.Rule.Loading

/-!
# The rules of a rule file

A rule file is loaded if its text reads as a list of entries and each entry becomes a
rule (`RuleSet.outcome_load_eq_ok_iff`).  An entry that becomes a rule has been through
the check of its descriptor, the loading of its targets and the check of the descriptor
of its replacement, so every loaded rule is `Rule.WellFormed`.
-/

namespace CallRedirect

/-- The descriptors that a rule brings along are method descriptors. -/
structure Rule.WellFormed (rule : Rule) : Prop where
  descriptor : validateDescriptor rule.descriptor = .ok ()
  replacement : ∀ descriptor, rule.redirect.descriptor? = some descriptor →
    validateDescriptor descriptor = .ok ()

namespace RuleEntry

theorem checkReplacement_eq_ok_iff {entry : RuleEntry} :
    entry.checkReplacement = .ok () ↔
      ∀ descriptor, entry.redirect.descriptor? = some descriptor →
        validateDescriptor descriptor = .ok () := by
  unfold checkReplacement
  cases entry.redirect.descriptor? with
  | none => simp
  | some given => simp

/-- An entry becomes a rule if its descriptor passes, its targets load, and the descriptor
of its replacement passes. -/
theorem load_eq_ok_iff {system : FileSystem} {base : String} {entry : RuleEntry} {rule : Rule} :
    entry.load system base = .ok rule ↔
      validateDescriptor entry.descriptor = .ok () ∧
        ∃ targets, entry.loadTargets system base = .ok targets ∧
          entry.checkReplacement = .ok () ∧
            rule = ⟨entry.name, entry.kind, entry.method, entry.descriptor, targets,
              entry.redirect⟩ := by
  simp only [load, bind_eq_ok_iff, mapError_eq_ok_iff, pure_eq_ok_iff]
  constructor
  · rintro ⟨_, hdescriptor, targets, htargets, _, hreplacement, hrule⟩
    exact ⟨hdescriptor, targets, htargets, hreplacement, hrule.symm⟩
  · rintro ⟨hdescriptor, targets, htargets, hreplacement, hrule⟩
    exact ⟨(), hdescriptor, targets, htargets, (), hreplacement, hrule.symm⟩

theorem wellFormed_of_load {system : FileSystem} {base : String} {entry : RuleEntry}
    {rule : Rule} (h : entry.load system base = .ok rule) : rule.WellFormed := by
  obtain ⟨hdescriptor, targets, -, hreplacement, rfl⟩ := load_eq_ok_iff.1 h
  exact ⟨hdescriptor, checkReplacement_eq_ok_iff.1 hreplacement⟩

end RuleEntry

namespace RuleSet

/-- The entries of a rule file become rules in order. -/
theorem outcome_ofEntries (system : FileSystem) (base : String) (entries : List RuleEntry) :
    (ofEntries system base entries).outcome = entries.mapM (·.load system base) := by
  induction entries with
  | nil => rfl
  | cons entry entries ih =>
      rw [ofEntries, List.mapM_cons]
      simp only [Logged.outcome_bind, Logged.outcome_ofExcept, Logged.outcome_log,
        Logged.outcome_pure, ok_bind, ih]
      rfl

theorem outcome_load_eq_ok_iff {system : FileSystem} {path : String} {rules : RuleSet} :
    (load system path).outcome = .ok rules ↔
      ∃ text entries, system.readText path = .ok text ∧ RuleConfig.parse text = .ok entries ∧
        entries.mapM (·.load system (Path.parent path)) = .ok rules := by
  simp only [load, Logged.outcome_bind, Logged.outcome_ofExcept, Logged.outcome_mapError,
    outcome_ofEntries, bind_eq_ok_iff, mapError_eq_ok_iff]
  constructor
  · rintro ⟨text, htext, entries, hentries, hrules⟩
    exact ⟨text, entries, htext, hentries, hrules⟩
  · rintro ⟨text, entries, htext, hentries, hrules⟩
    exact ⟨text, htext, entries, hentries, hrules⟩

theorem wellFormed_of_load {system : FileSystem} {path : String} {rules : RuleSet}
    (h : (load system path).outcome = .ok rules) : ∀ rule ∈ rules, rule.WellFormed := by
  obtain ⟨text, entries, -, -, hrules⟩ := outcome_load_eq_ok_iff.1 h
  intro rule hrule
  obtain ⟨entry, -, hentry⟩ := exists_of_mem_mapM hrules rule hrule
  exact entry.wellFormed_of_load hentry

end RuleSet

end CallRedirect
