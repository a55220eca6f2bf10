import CallRedirect.Batch
import CallRedirect.Proofs.Report
import Mathlib.Algebra.GroupWithZero.Nat

/-!
# Redirecting many classes is redirecting each of them

Going through a list of classes passes over the classes that no rule names, and
adds up what the others lead to.  This comes to letting all rules look at every
class of the list and putting the results one behind the other.

* `RuleSet.redirectClass_of_not_targets`: passing over a class makes no
  difference, since the rules would leave it alone without a line in the log.
* `Batch.ofClass` is what one class adds, and `RuleSet.redirectClasses_append`
  says that lists are put together from their parts.  So no class has an
  influence on what another one leads to.
-/

namespace CallRedirect

/-! ## The classes that rules name -/

/-- Whether some target of some rule names a class. -/
def RuleSet.Targets (rules : RuleSet) (className : String) : Prop :=
  ∃ rule ∈ rules, ∃ target ∈ rule.targets, target.className = className

instance (rules : RuleSet) (className : String) : Decidable (rules.Targets className) :=
  inferInstanceAs (Decidable (∃ rule ∈ rules, ∃ target ∈ rule.targets,
    target.className = className))

theorem mem_eraseReps_iff {α : Type} [BEq α] [LawfulBEq α] {items : List α} {item : α} :
    item ∈ items.eraseReps ↔ item ∈ items := by
  -- the loop carries the head of the present run and the runs that are done, in reverse
  have hloop (head : α) (rest done : List α) :
      item ∈ List.eraseRepsBy.loop (· == ·) head rest done ↔
        item ∈ done ∨ item = head ∨ item ∈ rest := by
    induction rest generalizing head done with
    | nil => simp [List.eraseRepsBy.loop, or_comm]
    | cons next rest ih =>
        rw [List.eraseRepsBy.loop]
        cases hsame : head == next with
        | true =>
            rw [ih, eq_of_beq hsame, List.mem_cons]
            tauto
        | false =>
            rw [ih, List.mem_cons, List.mem_cons]
            tauto
  cases items with
  | nil => rfl
  | cons head rest =>
      show item ∈ List.eraseRepsBy.loop (· == ·) head rest [] ↔ item ∈ head :: rest
      rw [hloop, List.mem_cons]
      simp

theorem RuleSet.mem_targetClasses_iff {rules : RuleSet} {className : String} :
    className ∈ rules.targetClasses ↔ rules.Targets className := by
  rw [targetClasses, mem_eraseReps_iff, List.mem_mergeSort, List.mem_map]
  simp only [List.mem_flatMap, Targets]
  constructor
  · rintro ⟨target, ⟨rule, hrule, htarget⟩, hname⟩
    exact ⟨rule, hrule, target, htarget, hname⟩
  · rintro ⟨rule, hrule, target, htarget, hname⟩
    exact ⟨target, ⟨rule, hrule, htarget⟩, hname⟩

/-! ## Classes that no rule names -/

theorem Pass.applyRule_of_forall_ne {rule : Rule} {state : Pass}
    (hnone : ∀ target ∈ rule.targets, target.className ≠ state.result.name) :
    state.applyRule rule = state := by
  have htargets : rule.targetsFor state.result.name = [] := by
    refine List.filter_eq_nil_iff.2 fun target htarget => ?_
    rw [decide_eq_true_eq]
    exact hnone target htarget
  have hscanned : rule.scannedMethods state.result = [] := by
    rw [Rule.scannedMethods, htargets, List.flatMap_nil]
  rw [applyRule, hscanned, List.foldl_nil]

/-- A class that no rule names comes out as it was, with an empty report and no event. -/
theorem RuleSet.redirectClass_of_not_targets {rules : RuleSet} {cls : Class}
    (hnone : ¬ rules.Targets cls.name) : rules.redirectClass cls = Pass.start cls := by
  rw [redirectClass]
  induction rules with
  | nil => rfl
  | cons rule rules ih =>
      have hhere : ∀ target ∈ rule.targets, target.className ≠ cls.name :=
        fun target htarget hname => hnone ⟨rule, List.mem_cons_self, target, htarget, hname⟩
      have hrest : ¬ RuleSet.Targets rules cls.name := by
        rintro ⟨other, hother, hfound⟩
        exact hnone ⟨other, List.mem_cons_of_mem _ hother, hfound⟩
      have hleft : (Pass.start cls).applyRule rule = Pass.start cls :=
        Pass.applyRule_of_forall_ne hhere
      rw [List.foldl_cons, hleft]
      exact ih hrest

/-! ## What one class leads to -/

theorem RuleSet.name_redirectClass (rules : RuleSet) (cls : Class) :
    (rules.redirectClass cls).result.name = cls.name := by
  rw [result_redirectClass, rewriteClass, Class.name_mapFirst]

theorem RuleSet.artifact_redirectClass (rules : RuleSet) (cls : Class) :
    (rules.redirectClass cls).result.artifact = cls.artifact := by
  rw [result_redirectClass, rewriteClass, Class.artifact_mapFirst]

/-- The results of letting all rules look at a class, whether a rule names it or not:
replaced calls first, then missing methods. -/
def RuleSet.resultsFor (rules : RuleSet) (cls : Class) : List Sarif.Result :=
  (rules.redirectClass cls).report.redirections.map (.ofRedirection cls.name cls.artifact) ++
    (rules.redirectClass cls).report.missing.map (.ofMissing cls.name cls.artifact)

/-- The class that a place belongs to. -/
def Sarif.Place.className : Sarif.Place → String
  | function className _ _ => className
  | type className => className

theorem RuleSet.artifact_and_className_of_mem_resultsFor {rules : RuleSet} {cls : Class}
    {result : Sarif.Result} (h : result ∈ rules.resultsFor cls) :
    result.artifact = cls.artifact ∧ result.place.className = cls.name := by
  rcases List.mem_append.1 h with hredirection | hmissing
  · obtain ⟨entry, -, rfl⟩ := List.mem_map.1 hredirection
    exact ⟨rfl, rfl⟩
  · obtain ⟨missing, -, rfl⟩ := List.mem_map.1 hmissing
    exact ⟨rfl, rfl⟩

theorem RuleSet.resultsFor_of_not_targets {rules : RuleSet} {cls : Class}
    (hnone : ¬ rules.Targets cls.name) : rules.resultsFor cls = [] := by
  rw [resultsFor, redirectClass_of_not_targets hnone]
  rfl

theorem RuleSet.length_resultsFor (rules : RuleSet) (cls : Class) :
    (rules.resultsFor cls).length = (rules.redirectClass cls).report.redirections.length +
      (rules.redirectClass cls).report.missing.length := by
  rw [resultsFor, List.length_append, List.length_map, List.length_map]

namespace Batch

/-- Put together what two lists of classes led to. -/
instance : Append Batch where
  append first second := {
    results := first.results ++ second.results
    candidates := first.candidates + second.candidates
    redirections := first.redirections + second.redirections
    missing := first.missing + second.missing
    events := first.events ++ second.events
  }

theorem append_assoc (first second third : Batch) :
    first ++ second ++ third = first ++ (second ++ third) := by
  show Batch.mk _ _ _ _ _ = Batch.mk _ _ _ _ _
  congr 1
  · exact List.append_assoc first.results second.results third.results
  · exact Nat.add_assoc first.candidates second.candidates third.candidates
  · exact Nat.add_assoc first.redirections second.redirections third.redirections
  · exact Nat.add_assoc first.missing second.missing third.missing
  · exact List.append_assoc first.events second.events third.events

theorem append_empty (batch : Batch) : batch ++ empty = batch := by
  show Batch.mk _ _ _ _ _ = batch
  congr 1
  · exact List.append_nil batch.results
  · exact List.append_nil batch.events

/-- What one class leads to. -/
def ofClass (rules : RuleSet) (cls : Class) : Batch := add rules empty cls

theorem add_eq_append (rules : RuleSet) (batch : Batch) (cls : Class) :
    add rules batch cls = batch ++ ofClass rules cls := by
  unfold ofClass add
  split
  · show Batch.mk _ _ _ _ _ = Batch.mk _ _ _ _ _
    simp [empty]
  · exact (append_empty batch).symm

theorem foldl_add_eq_append (rules : RuleSet) (classes : List Class) (batch : Batch) :
    classes.foldl (add rules) batch = batch ++ classes.foldl (add rules) empty := by
  induction classes generalizing batch with
  | nil => exact (append_empty batch).symm
  | cons cls classes ih =>
      rw [List.foldl_cons, List.foldl_cons, ih, ih (add rules empty cls), add_eq_append,
        append_assoc]
      rfl

theorem results_ofClass (rules : RuleSet) (cls : Class) :
    (ofClass rules cls).results = rules.resultsFor cls := by
  unfold ofClass add
  split
  · simp only [rules.name_redirectClass, rules.artifact_redirectClass]
    exact List.nil_append _
  · next hnone =>
    rw [RuleSet.mem_targetClasses_iff] at hnone
    exact (RuleSet.resultsFor_of_not_targets hnone).symm

theorem candidates_ofClass (rules : RuleSet) (cls : Class) :
    (ofClass rules cls).candidates = if rules.Targets cls.name then 1 else 0 := by
  unfold ofClass add
  simp only [RuleSet.mem_targetClasses_iff]
  split <;> rfl

theorem redirections_ofClass (rules : RuleSet) (cls : Class) :
    (ofClass rules cls).redirections = (rules.redirectClass cls).report.redirections.length := by
  unfold ofClass add
  split
  · exact Nat.zero_add _
  · next hnone =>
    rw [RuleSet.mem_targetClasses_iff] at hnone
    rw [RuleSet.redirectClass_of_not_targets hnone]
    rfl

theorem missing_ofClass (rules : RuleSet) (cls : Class) :
    (ofClass rules cls).missing = (rules.redirectClass cls).report.missing.length := by
  unfold ofClass add
  split
  · exact Nat.zero_add _
  · next hnone =>
    rw [RuleSet.mem_targetClasses_iff] at hnone
    rw [RuleSet.redirectClass_of_not_targets hnone]
    rfl

end Batch

/-! ## What a list of classes leads to -/

namespace RuleSet

theorem redirectClasses_append (rules : RuleSet) (first second : List Class) :
    rules.redirectClasses (first ++ second) =
      rules.redirectClasses first ++ rules.redirectClasses second := by
  rw [redirectClasses, List.foldl_append, Batch.foldl_add_eq_append]
  rfl

theorem redirectClasses_cons (rules : RuleSet) (cls : Class) (classes : List Class) :
    rules.redirectClasses (cls :: classes) =
      Batch.ofClass rules cls ++ rules.redirectClasses classes :=
  rules.redirectClasses_append [cls] classes

theorem results_redirectClasses (rules : RuleSet) (classes : List Class) :
    (rules.redirectClasses classes).results = classes.flatMap rules.resultsFor := by
  induction classes with
  | nil => rfl
  | cons cls classes ih =>
      rw [redirectClasses_cons, List.flatMap_cons, ← Batch.results_ofClass, ← ih]
      rfl

theorem redirections_redirectClasses (rules : RuleSet) (classes : List Class) :
    (rules.redirectClasses classes).redirections =
      (classes.map fun cls => (rules.redirectClass cls).report.redirections.length).sum := by
  induction classes with
  | nil => rfl
  | cons cls classes ih =>
      rw [redirectClasses_cons, List.map_cons, List.sum_cons, ← Batch.redirections_ofClass, ← ih]
      rfl

theorem missing_redirectClasses (rules : RuleSet) (classes : List Class) :
    (rules.redirectClasses classes).missing =
      (classes.map fun cls => (rules.redirectClass cls).report.missing.length).sum := by
  induction classes with
  | nil => rfl
  | cons cls classes ih =>
      rw [redirectClasses_cons, List.map_cons, List.sum_cons, ← Batch.missing_ofClass, ← ih]
      rfl

theorem candidates_redirectClasses (rules : RuleSet) (classes : List Class) :
    (rules.redirectClasses classes).candidates =
      classes.countP fun cls => rules.Targets cls.name := by
  induction classes with
  | nil => rfl
  | cons cls classes ih =>
      have hcount : (rules.redirectClasses (cls :: classes)).candidates =
          (Batch.ofClass rules cls).candidates + (rules.redirectClasses classes).candidates := by
        rw [redirectClasses_cons]
        rfl
      rw [hcount, ih, Batch.candidates_ofClass, List.countP_cons, Nat.add_comm]
      simp only [decide_eq_true_eq]

theorem length_results_redirectClasses (rules : RuleSet) (classes : List Class) :
    (rules.redirectClasses classes).results.length =
      (rules.redirectClasses classes).redirections + (rules.redirectClasses classes).missing := by
  rw [results_redirectClasses, redirections_redirectClasses, missing_redirectClasses]
  induction classes with
  | nil => rfl
  | cons cls classes ih =>
      rw [List.flatMap_cons, List.length_append, ih, length_resultsFor]
      simp only [List.map_cons, List.sum_cons]
      omega

end RuleSet

/-- Going through a list of classes comes to letting all rules look at every class of it:
the results, each at the class and the artifact that it comes from, stand one behind the
other, and the numbers add up.  A class that no rule names would be left alone anyway, and
what two lists lead to is put together from what each leads to. -/
theorem redirectClasses_eq_each (rules : RuleSet) :
    (∀ classes : List Class,
      (rules.redirectClasses classes).results = classes.flatMap rules.resultsFor ∧
      (rules.redirectClasses classes).redirections =
        (classes.map fun cls => (rules.redirectClass cls).report.redirections.length).sum ∧
      (rules.redirectClasses classes).missing =
        (classes.map fun cls => (rules.redirectClass cls).report.missing.length).sum ∧
      (rules.redirectClasses classes).candidates =
        classes.countP (fun cls => rules.Targets cls.name) ∧
      (rules.redirectClasses classes).redirections + (rules.redirectClasses classes).missing =
        (rules.redirectClasses classes).results.length) ∧
    (∀ (cls : Class), ∀ result ∈ rules.resultsFor cls,
      result.artifact = cls.artifact ∧ result.place.className = cls.name) ∧
    (∀ cls : Class, ¬ rules.Targets cls.name →
      rules.redirectClass cls = ⟨cls, ⟨[], []⟩, []⟩) ∧
    ∀ first second : List Class, rules.redirectClasses (first ++ second) =
      rules.redirectClasses first ++ rules.redirectClasses second := by
  refine ⟨fun classes => ⟨?_, ?_, ?_, ?_, ?_⟩, ?_, ?_, rules.redirectClasses_append⟩
  · exact rules.results_redirectClasses classes
  · exact rules.redirections_redirectClasses classes
  · exact rules.missing_redirectClasses classes
  · exact rules.candidates_redirectClasses classes
  · exact (rules.length_results_redirectClasses classes).symm
  · intro cls result hresult
    exact RuleSet.artifact_and_className_of_mem_resultsFor hresult
  · intro cls hnone
    exact RuleSet.redirectClass_of_not_targets hnone

/-- Of three classes the one in the middle is not named; the two others have one name and
lead to one result each, at their own artifacts. -/
theorem redirectClasses_eq_each_same_name :
    let rules : RuleSet :=
      [⟨"r", .virtual, "f", "()V", [⟨"A", ["m()V"]⟩], .rename "g" none⟩]
    let calling (name : String) (artifact : Int) : Class :=
      ⟨name, [⟨"m", "()V", 0, [⟨0, 0xb6, some ⟨"B", "f", "()V", .virtual, 0⟩⟩]⟩], artifact⟩
    let batch := rules.redirectClasses [calling "A" 1, calling "B" 2, ⟨"A", [], 3⟩]
    batch.results.map (fun result => (result.ruleId, result.place, result.artifact)) =
        [("r", .function "A" "m" "()V", 1), ("MISSING_METHOD", .type "A", 3)] ∧
      (batch.candidates, batch.redirections, batch.missing) = (2, 1, 1) ∧
      rules.redirectClass (calling "B" 2) = ⟨calling "B" 2, ⟨[], []⟩, []⟩ := by
  intro rules calling batch
  obtain ⟨hlists, -, hunnamed, -⟩ := redirectClasses_eq_each rules
  obtain ⟨hresults, hredirections, hmissing, hcandidates, -⟩ :=
    hlists [calling "A" 1, calling "B" 2, ⟨"A", [], 3⟩]
  refine ⟨?_, ?_, hunnamed (calling "B" 2) (by decide)⟩
  · rw [hresults]
    decide
  · rw [hredirections, hmissing, hcandidates]
    decide

end CallRedirect
