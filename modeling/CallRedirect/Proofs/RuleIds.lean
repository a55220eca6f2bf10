import CallRedirect.Proofs.History
import CallRedirect.Proofs.MissingMethods
import CallRedirect.Proofs.ResultPlaces

/-!
# Rule ids of results

A result for a replaced call has the name of the rule as its rule id, which is any text that a
rule file gives.  A result for a missing method has a fixed one.  Nothing keeps the two apart,
so a rule of that name makes results that have the rule id of missing methods.

* `RuleSet.failedLookups` and `RuleSet.replacedCalls` are what results come from.
* `RuleSet.countP_ruleId` counts the results with the rule id of missing methods: one for each
  failed look-up, and one for each call replaced by a rule of that name.
-/

namespace CallRedirect

namespace Sarif

/-- The rule id that a result of the report shows. -/
def ruleId? (result : Json.Value) : Option String :=
  match result.at? ["ruleId"] with
  | some (.string id) => some id
  | _ => none

@[simp] theorem Result.ruleId?_json (result : Result) :
    ruleId? result.json = some result.ruleId := rfl

end Sarif

namespace RuleSet

/-- The look-ups of methods that fail while the rules go through classes, in order. -/
def failedLookups (rules : RuleSet) (classes : List Class) : List MissingMethod :=
  classes.flatMap fun cls => rules.flatMap fun rule => rule.absentIn cls

/-- The calls that are replaced while the rules go through classes, in order. -/
def replacedCalls (rules : RuleSet) (classes : List Class) : List Redirection :=
  classes.flatMap fun cls => (rules.redirectClass cls).report.redirections

theorem missing_redirectClasses_eq_length (rules : RuleSet) (classes : List Class) :
    (rules.redirectClasses classes).missing = (rules.failedLookups classes).length := by
  rw [missing_redirectClasses, failedLookups, List.length_flatMap]
  simp only [missing_eq_absentIn]

theorem countP_ruleId_resultsFor (rules : RuleSet) (cls : Class) :
    (rules.resultsFor cls).countP (fun result => result.ruleId = Sarif.missingMethodRuleId) =
      (rules.flatMap fun rule => rule.absentIn cls).length +
        (rules.redirectClass cls).report.redirections.countP
          (fun entry => entry.rule = Sarif.missingMethodRuleId) := by
  have hmissing : (rules.redirectClass cls).report.missing.countP
      ((fun result => result.ruleId = Sarif.missingMethodRuleId) ∘
        Sarif.Result.ofMissing cls.name cls.artifact) =
      (rules.redirectClass cls).report.missing.length := by
    refine List.countP_eq_length.2 fun missing _ => ?_
    simp [Sarif.Result.ofMissing]
  rw [resultsFor, List.countP_append, List.countP_map, List.countP_map, hmissing,
    missing_eq_absentIn, Nat.add_comm]
  rfl

/-- A result has the rule id of missing methods for one of two reasons. -/
theorem countP_ruleId (rules : RuleSet) (classes : List Class) :
    (rules.redirectClasses classes).results.countP
        (fun result => result.ruleId = Sarif.missingMethodRuleId) =
      (rules.failedLookups classes).length +
        (rules.replacedCalls classes).countP
          (fun entry => entry.rule = Sarif.missingMethodRuleId) := by
  rw [results_redirectClasses, failedLookups, replacedCalls]
  induction classes with
  | nil => rfl
  | cons cls classes ih =>
      simp only [List.flatMap_cons, List.countP_append, List.length_append, ih,
        countP_ruleId_resultsFor]
      omega

/-- The rule of a replaced call is the name of one of the rules. -/
theorem rule_mem_of_mem_replacedCalls {rules : RuleSet} {classes : List Class}
    {entry : Redirection} (h : entry ∈ rules.replacedCalls classes) :
    entry.rule ∈ rules.map (·.name) := by
  obtain ⟨cls, -, hentry⟩ := List.mem_flatMap.1 h
  have hany : ∀ method ∈ cls.methods, ∀ instruction ∈ method.code, True :=
    fun _ _ _ _ => trivial
  obtain ⟨rule, hrule, method, instruction, -, -, -, hmade⟩ :=
    exists_rule_of_mem_redirections hany (fun _ _ _ _ => trivial) hentry
  rw [hmade]
  exact List.mem_map_of_mem hrule

theorem countP_replacedCalls_eq_zero {rules : RuleSet} {name : String}
    (h : name ∉ rules.map (·.name)) (classes : List Class) :
    (rules.replacedCalls classes).countP (fun entry => entry.rule = name) = 0 := by
  rw [List.countP_eq_zero]
  intro entry hentry hrule
  rw [decide_eq_true_eq] at hrule
  exact h (hrule ▸ rule_mem_of_mem_replacedCalls hentry)

end RuleSet

/-- Of the results of a run that succeeds, as many have the rule id of missing methods as
look-ups failed and calls were replaced by a rule of that name.  If there is no such rule, the
results with this rule id are those for failed look-ups, and a run is called a failure exactly
if it has one. -/
theorem run_missing_by_rule_id {settings : Settings} {system : FileSystem}
    {arguments : Option (List String)} {done : RunResult}
    (h : (settings.run system arguments).outcome = .ok done) :
    ∃ (rules : RuleSet) (scan : Scan) (results : List Json.Value) (successful : Bool),
      (settings.loadRules system).outcome = .ok rules ∧
      (Scan.input system settings.input).outcome = .ok scan ∧
      done.report.at? ["runs", 0, "results"] = some (.array results) ∧
      done.report.at? ["runs", 0, "invocations", 0, "executionSuccessful"] =
        some (.bool successful) ∧
      (successful = false ↔ rules.failedLookups scan.classes ≠ []) ∧
      results.countP (fun result => Sarif.ruleId? result = some Sarif.missingMethodRuleId) =
        (rules.failedLookups scan.classes).length +
          (rules.replacedCalls scan.classes).countP
            (fun entry => entry.rule = Sarif.missingMethodRuleId) ∧
      (Sarif.missingMethodRuleId ∉ rules.map (·.name) →
        results.countP (fun result => Sarif.ruleId? result = some Sarif.missingMethodRuleId) =
          (rules.failedLookups scan.classes).length ∧
        (successful = false ↔
          ∃ result ∈ results, Sarif.ruleId? result = some Sarif.missingMethodRuleId)) := by
  obtain ⟨-, rules, scan, destination, hrules, hscan, -, rfl⟩ :=
    Settings.outcome_run_eq_ok_iff.1 h
  let results := (rules.redirectClasses scan.classes).results.map (·.json)
  have hsuccessful : decide ((rules.redirectClasses scan.classes).missing = 0) = false ↔
      rules.failedLookups scan.classes ≠ [] := by
    rw [decide_eq_false_iff_not, rules.missing_redirectClasses_eq_length, List.length_eq_zero_iff]
  have hcount :
      results.countP (fun result => Sarif.ruleId? result = some Sarif.missingMethodRuleId) =
        (rules.failedLookups scan.classes).length +
          (rules.replacedCalls scan.classes).countP
            (fun entry => entry.rule = Sarif.missingMethodRuleId) := by
    rw [← rules.countP_ruleId, List.countP_map]
    simp only [Function.comp_def, Sarif.Result.ruleId?_json, Option.some.injEq]
  refine ⟨rules, scan, results, _, hrules, hscan, Sarif.at?_document_results ..,
    Sarif.at?_document_successful .., hsuccessful, hcount, ?apart⟩
  case apart =>
    intro hapart
    rw [RuleSet.countP_replacedCalls_eq_zero hapart, Nat.add_zero] at hcount
    refine ⟨hcount, ?_⟩
    rw [hsuccessful, ← List.length_pos_iff, ← hcount, List.countP_pos_iff]
    simp only [decide_eq_true_eq]

/-- The built-in rule looks for one method of the class in vain. -/
theorem run_missing_by_rule_id_archive :
    let system : FileSystem := ⟨.directory [("a.jar", .file spawnerArchive)], []⟩
    let settings : Settings := ⟨"a.jar", none, none, false, false, false⟩
    ∃ (done : RunResult) (results : List Json.Value),
      (settings.run system none).outcome = .ok done ∧
      done.report.at? ["runs", 0, "results"] = some (.array results) ∧
      done.report.at? ["runs", 0, "invocations", 0, "executionSuccessful"] =
        some (.bool false) ∧
      results.countP (fun result => Sarif.ruleId? result = some Sarif.missingMethodRuleId) = 1 := by
  intro system settings
  let scan : Scan :=
    ⟨[⟨"a.jar", some 179, none, true⟩, ⟨"jar:a.jar!/x.class", some 67, some 0, false⟩], [spawner]⟩
  have hscan : (Scan.input system "a.jar").outcome = .ok scan := by
    have hread : system.read "a.jar" = .ok spawnerArchive := rfl
    show (Scan.archive 0 true ⟨"a.jar", system.read "a.jar"⟩).outcome = .ok scan
    rw [hread]
    exact outcome_archive_spawnerArchive
  have hrun : (settings.run system none).outcome = .ok _ := Settings.outcome_run_eq_ok_iff.2
    ⟨by decide, RuleSet.builtin, scan, .standardOutput, rfl, hscan, rfl, rfl⟩
  obtain ⟨rules, scanned, results, successful, hrules, hscanned, hresults, hsuccessful, hfailed,
    -, hapart⟩ := run_missing_by_rule_id hrun
  cases hrules
  rw [hscan] at hscanned
  cases hscanned
  have hlookups : (RuleSet.builtin.failedLookups [spawner]).length = 1 := by decide +kernel
  obtain ⟨hcount, -⟩ := hapart (by decide)
  have hfalse : successful = false :=
    hfailed.2 (List.ne_nil_of_length_pos (Nat.lt_of_lt_of_eq Nat.one_pos hlookups.symm))
  exact ⟨_, results, hrun, hresults, hfalse ▸ hsuccessful, hcount.trans hlookups⟩

/-- A rule with the name of that rule id replaces a call.  The run succeeds, finds every method
and has a result with this rule id. -/
theorem run_missing_by_rule_id_clash :
    let text := "\x7b\"rules\":[\x7b\"name\":\"MISSING_METHOD\",\"kind\":\"virtual\"," ++
      "\"method\":\"m\",\"descriptor\":\"()V\"," ++
      "\"targets\":[\x7b\"class\":\"A\",\"methods\":[\"m()V\"]\x7d]," ++
      "\"redirect\":\x7b\"rename\":\x7b\"name\":\"n\"\x7d\x7d\x7d]\x7d"
    let system : FileSystem :=
      ⟨.directory [("A.class", .file recursiveClass), ("r", .file text.toUTF8.toList)], []⟩
    let settings : Settings := ⟨"A.class", some "r", none, false, false, false⟩
    ∃ (done : RunResult) (result : Json.Value),
      (settings.run system none).outcome = .ok done ∧ done.tally.missing = 0 ∧
      done.report.at? ["runs", 0, "results"] = some (.array [result]) ∧
      Sarif.ruleId? result = some Sarif.missingMethodRuleId ∧
      done.report.at? ["runs", 0, "invocations", 0, "executionSuccessful"] =
        some (.bool true) := by
  intro text system settings
  let rules : RuleSet :=
    [⟨"MISSING_METHOD", .virtual, "m", "()V", [⟨"A", ["m()V"]⟩], .rename "n" none⟩]
  have hrules : (settings.loadRules system).outcome = .ok rules := by
    have hloaded : (settings.loadRules system).outcome.toOption = some rules := by decide +kernel
    exact toOption_eq_some_iff.1 hloaded
  let cls : Class := ⟨"A", [⟨"m", "()V", 1,
    [⟨0, 0x2a, none⟩, ⟨1, 0xb6, some ⟨"A", "m", "()V", .virtual, 1⟩⟩, ⟨4, 0xb1, none⟩]⟩], 0⟩
  let scan : Scan := ⟨[⟨"A.class", some recursiveClass.length, none, true⟩], [cls]⟩
  have hscan : (Scan.input system "A.class").outcome = .ok scan := by
    have hlift : liftClass recursiveClass 0 = .ok cls := by decide +kernel
    exact Scan.outcome_classFile_eq_ok_iff.2 ⟨recursiveClass, cls, rfl, hlift, rfl⟩
  let entry : Redirection := ⟨"MISSING_METHOD", "m", "()V", ⟨"A", "m", "()V", .virtual, 1⟩,
    ⟨"A", "n", "()V", .virtual, 1⟩⟩
  let result : Sarif.Result := .ofRedirection "A" 0 entry
  have hbatch : (rules.redirectClasses scan.classes).results = [result] ∧
      (rules.redirectClasses scan.classes).missing = 0 := by
    rw [RuleSet.results_redirectClasses, RuleSet.missing_redirectClasses]
    decide +kernel
  have hrun : (settings.run system none).outcome = .ok _ := Settings.outcome_run_eq_ok_iff.2
    ⟨by decide, rules, scan, .standardOutput, hrules, hscan, rfl, rfl⟩
  refine ⟨_, result.json, hrun, hbatch.2, ?_, rfl, ?_⟩
  · rw [Sarif.at?_document_results, hbatch.1, List.map_singleton]
  · rw [Sarif.at?_document_successful, hbatch.2]
    rfl

end CallRedirect
