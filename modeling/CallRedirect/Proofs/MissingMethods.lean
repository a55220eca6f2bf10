import CallRedirect.Proofs.Report

/-!
# Missing methods

A rule looks for the methods that its targets declare for a class, and for the synthetic
methods of the class.  The synthetic ones are always found, so a missing method is a
declared one to which no method of the class answers.

* `Rule.absentIn` lists these for one rule, and `RuleSet.missing_eq_absentIn` says that the
  passes report no others.
* `Rule.presentIn` is the rule without them.  Looking for a method in vain leaves no trace
  but the report of it (`Pass.work_foldl_visit_filter`), so a rule set without them does the
  same work.
-/

namespace CallRedirect

/-! ## What a rule looks for in vain -/

/-- The identifiers of a target to which no method of a class answers, in order and as often as
they are declared. -/
def ClassTarget.absentIn (target : ClassTarget) (cls : Class) : List MethodId :=
  (target.methods.map MethodId.parse).filter fun id => id ∉ cls.methods.map Method.id

/-- What a rule declares for a class and the class lacks, target by target. -/
def Rule.absentIn (rule : Rule) (cls : Class) : List MissingMethod :=
  (rule.targetsFor cls.name).flatMap fun target => (target.absentIn cls).map (⟨rule.name, ·⟩)

theorem Class.lacks_eq (cls : Class) :
    cls.lacks = fun id => decide (id ∉ cls.methods.map Method.id) := by
  funext id
  rw [Bool.eq_iff_iff, lacks_eq_true_iff, decide_eq_true_eq]

/-- A class has its synthetic methods. -/
theorem Class.lacks_of_mem_syntheticIds {cls : Class} {id : MethodId} (h : id ∈ cls.syntheticIds) :
    cls.lacks id = false := by
  obtain ⟨method, hmethod, rfl⟩ := List.mem_map.1 h
  rw [← Bool.not_eq_true, lacks_eq_true_iff, not_not]
  exact List.mem_map_of_mem (f := Method.id) (List.mem_of_mem_filter hmethod)

theorem Rule.missingIn_eq_absentIn (rule : Rule) (cls : Class) :
    rule.missingIn cls = rule.absentIn cls := by
  have hsynthetic : cls.syntheticIds.filter cls.lacks = [] := by
    rw [List.filter_eq_nil_iff]
    intro id hid
    rw [Class.lacks_of_mem_syntheticIds hid]
    exact Bool.false_ne_true
  rw [missingIn, absentIn, scannedMethods, List.filter_flatMap, List.map_flatMap]
  refine List.flatMap_congr fun target _ => ?_
  rw [List.filter_append, hsynthetic, List.append_nil, ClassTarget.absentIn, Class.lacks_eq]

theorem Rule.absentIn_congr (rule : Rule) {cls other : Class} (hname : other.name = cls.name)
    (hids : other.methods.map Method.id = cls.methods.map Method.id) :
    rule.absentIn other = rule.absentIn cls := by
  simp only [absentIn, ClassTarget.absentIn, hname, hids]

/-- The missing methods are what the rules declare for the class as it was given. -/
theorem RuleSet.missing_eq_absentIn (rules : RuleSet) (cls : Class) :
    (rules.redirectClass cls).report.missing = rules.flatMap fun rule => rule.absentIn cls := by
  rw [missing_redirectClass]
  exact List.flatMap_congr fun rule _ => rule.missingIn_eq_absentIn cls

/-! ## Rules without what they look for in vain -/

/-- A target without the identifiers that a class lacks, if the target names the class. -/
def ClassTarget.presentIn (target : ClassTarget) (cls : Class) : ClassTarget :=
  if target.className = cls.name then
    { target with
      methods := target.methods.filter fun text =>
        MethodId.parse text ∈ cls.methods.map Method.id }
  else target

/-- A rule without the identifiers that it looks for in a class in vain. -/
def Rule.presentIn (rule : Rule) (cls : Class) : Rule :=
  { rule with targets := rule.targets.map (·.presentIn cls) }

@[simp] theorem ClassTarget.className_presentIn (target : ClassTarget) (cls : Class) :
    (target.presentIn cls).className = target.className := by
  unfold presentIn
  split <;> rfl

theorem ClassTarget.map_parse_presentIn {target : ClassTarget} {cls : Class}
    (h : target.className = cls.name) :
    (target.presentIn cls).methods.map MethodId.parse =
      (target.methods.map MethodId.parse).filter fun id => !cls.lacks id := by
  rw [presentIn, if_pos h, List.filter_map, Class.lacks_eq]
  simp only [decide_not, Bool.not_not]
  rfl

theorem Rule.targetsFor_presentIn (rule : Rule) (cls : Class) :
    (rule.presentIn cls).targetsFor cls.name =
      (rule.targetsFor cls.name).map (·.presentIn cls) := by
  rw [targetsFor, targetsFor, presentIn, List.filter_map]
  simp only [Function.comp_def, ClassTarget.className_presentIn]

theorem Rule.scannedMethods_presentIn (rule : Rule) (cls : Class) :
    (rule.presentIn cls).scannedMethods cls =
      (rule.scannedMethods cls).filter fun id => !cls.lacks id := by
  have hsynthetic : cls.syntheticIds.filter (fun id => !cls.lacks id) = cls.syntheticIds := by
    rw [List.filter_eq_self]
    intro id hid
    rw [Class.lacks_of_mem_syntheticIds hid]
    rfl
  rw [scannedMethods, scannedMethods, targetsFor_presentIn, List.flatMap_map, List.filter_flatMap]
  refine List.flatMap_congr fun target htarget => ?_
  have hnamed : target.className = cls.name := by
    rw [targetsFor, List.mem_filter, decide_eq_true_eq] at htarget
    exact htarget.2
  rw [List.filter_append, hsynthetic, ClassTarget.map_parse_presentIn hnamed]

/-- What a rule looks for in vain stays the same while calls are replaced. -/
theorem Rule.presentIn_mapFirst (rule : Rule) (cls : Class)
    (change : MethodId → Instruction → Instruction) :
    rule.presentIn (cls.mapFirst change) = rule.presentIn cls := by
  have hids : (cls.mapFirst change).methods.map Method.id = cls.methods.map Method.id :=
    cls.map_mapFirst Method.id fun _ => rfl
  simp only [presentIn, ClassTarget.presentIn, Class.name_mapFirst, hids]

/-! ## The work of a pass -/

namespace Pass

/-- What was done so far: the class as it is now, and the calls that were replaced. -/
def work (state : Pass) : Class × List Redirection := (state.result, state.report.redirections)

/-- What a visit does depends on what was done before it, not on what was missing. -/
theorem work_visit_congr (rule : Rule) {state other : Pass} (h : other.work = state.work)
    (id : MethodId) : (visit rule other id).work = (visit rule state id).work := by
  obtain ⟨hresult, hredirections⟩ := Prod.mk.inj h
  simp only [work, result_visit, redirections_visit, hresult, hredirections]

theorem work_visit_of_lacks {rule : Rule} {state : Pass} {id : MethodId}
    (h : state.result.lacks id = true) : (visit rule state id).work = state.work := by
  have hnone : state.result.method? id = none := Option.isNone_iff_eq_none.1 h
  rw [visit, hnone]
  rfl

theorem work_foldl_visit_filter (rule : Rule) (ids : List MethodId) {state other : Pass}
    (h : other.work = state.work) :
    ((ids.filter fun id => !state.result.lacks id).foldl (visit rule) other).work =
      (ids.foldl (visit rule) state).work := by
  induction ids generalizing state other with
  | nil => exact h
  | cons id ids ih =>
      -- a visit does not change which methods there are
      have hlacks : (visit rule state id).result.lacks = state.result.lacks := by
        rw [result_visit, Class.lacks_mapFirst]
      rw [List.foldl_cons, ← hlacks]
      cases habsent : state.result.lacks id with
      | true =>
          rw [List.filter_cons_of_neg (by simp [hlacks, habsent])]
          exact ih (h.trans (work_visit_of_lacks habsent).symm)
      | false =>
          rw [List.filter_cons_of_pos (by simp [hlacks, habsent]), List.foldl_cons]
          exact ih (work_visit_congr rule h id)

theorem work_applyRule_presentIn (rule : Rule) {state other : Pass} (h : other.work = state.work) :
    (other.applyRule (rule.presentIn state.result)).work = (state.applyRule rule).work := by
  have hresult : other.result = state.result := (Prod.mk.inj h).1
  rw [applyRule, applyRule, hresult, Rule.scannedMethods_presentIn]
  exact work_foldl_visit_filter rule (rule.scannedMethods state.result) h

theorem work_foldl_applyRule_presentIn (rules : List Rule) {state other : Pass}
    (h : other.work = state.work) :
    ((rules.map (·.presentIn state.result)).foldl applyRule other).work =
      (rules.foldl applyRule state).work := by
  induction rules generalizing state other with
  | nil => exact h
  | cons rule rules ih =>
      -- the first rule changes the class, but not which methods it has
      have hsame : (rules.map fun later => later.presentIn state.result) =
          rules.map fun later => later.presentIn (state.applyRule rule).result := by
        simp only [result_applyRule, Rule.presentIn_mapFirst]
      rw [List.map_cons, List.foldl_cons, List.foldl_cons, hsame]
      exact ih (work_applyRule_presentIn rule h)

end Pass

namespace RuleSet

/-- The rules without the identifiers that they look for in a class in vain. -/
def presentIn (rules : RuleSet) (cls : Class) : RuleSet := rules.map (·.presentIn cls)

theorem missing_presentIn (rules : RuleSet) (cls : Class) :
    ((rules.presentIn cls).redirectClass cls).report.missing = [] := by
  rw [missing_redirectClass, presentIn, List.flatMap_map, List.flatMap_eq_nil_iff]
  intro rule _
  rw [Rule.missingIn, Rule.scannedMethods_presentIn, List.filter_filter]
  simp

end RuleSet

/-- The missing methods are what the rules declare for a class and the class lacks, in order and
as often as it is declared.  They are settled by the identifiers of the methods alone.  A rule
set that does not declare them does the same to the class and reports the same calls. -/
theorem redirectClass_missing_eq (rules : RuleSet) (cls : Class) :
    (rules.redirectClass cls).report.missing = rules.flatMap (fun rule => rule.absentIn cls) ∧
    (∀ missing ∈ (rules.redirectClass cls).report.missing,
      missing.method ∉ cls.syntheticIds) ∧
    (∀ other : Class, other.name = cls.name →
      other.methods.map Method.id = cls.methods.map Method.id →
      (rules.redirectClass other).report.missing = (rules.redirectClass cls).report.missing) ∧
    ((rules.presentIn cls).redirectClass cls).result = (rules.redirectClass cls).result ∧
    ((rules.presentIn cls).redirectClass cls).report =
      ⟨(rules.redirectClass cls).report.redirections, []⟩ := by
  have hstart : (Pass.start cls).work = (Pass.start cls).work := rfl
  have hwork : ((rules.presentIn cls).redirectClass cls).work = (rules.redirectClass cls).work :=
    Pass.work_foldl_applyRule_presentIn rules hstart
  obtain ⟨hresult, hredirections⟩ := Prod.mk.inj hwork
  refine ⟨rules.missing_eq_absentIn cls, ?synthetic, ?instructions, hresult, ?report⟩
  case synthetic =>
    intro missing hmem hsynthetic
    rw [RuleSet.missing_redirectClass] at hmem
    obtain ⟨rule, -, hrule⟩ := List.mem_flatMap.1 hmem
    obtain ⟨id, hid, rfl⟩ := List.mem_map.1 hrule
    have habsent := List.of_mem_filter hid
    rw [Class.lacks_of_mem_syntheticIds hsynthetic] at habsent
    cases habsent
  case instructions =>
    intro other hname hids
    rw [rules.missing_eq_absentIn, rules.missing_eq_absentIn]
    exact List.flatMap_congr fun rule _ => rule.absentIn_congr hname hids
  case report =>
    rw [← hredirections, ← rules.missing_presentIn cls]

/-- A method that is declared twice and not there is missing twice, also in the class without
its code.  The synthetic method is not. -/
theorem redirectClass_missing_eq_twice :
    let rules (methods : List String) : RuleSet :=
      [⟨"r", .virtual, "f", "()V", [⟨"A", methods⟩], .rename "g" none⟩]
    let given := rules ["gone()V", "m()V", "gone()V"]
    let calling (code : List Instruction) : Class :=
      ⟨"A", [⟨"m", "()V", 0, code⟩, ⟨"s", "()V", 0x1000, code⟩], 0⟩
    let cls := calling [⟨0, 0xb6, some ⟨"B", "f", "()V", .virtual, 0⟩⟩]
    let gone : MissingMethod := ⟨"r", ⟨"gone", "()V"⟩⟩
    (given.redirectClass cls).report.missing = [gone, gone] ∧
      gone.method ∉ cls.syntheticIds ∧
      (given.redirectClass (calling [])).report.missing = [gone, gone] ∧
      ((rules ["m()V"]).redirectClass cls).result = (given.redirectClass cls).result ∧
      ((rules ["m()V"]).redirectClass cls).report =
        ⟨(given.redirectClass cls).report.redirections, []⟩ := by
  intro rules given calling cls gone
  obtain ⟨hmissing, hsynthetic, hcode, hresult, hreport⟩ := redirectClass_missing_eq given cls
  have hlisted : (given.redirectClass cls).report.missing = [gone, gone] := by
    rw [hmissing]
    decide
  have hpresent : given.presentIn cls = rules ["m()V"] := by decide
  rw [hpresent] at hresult hreport
  refine ⟨hlisted, hsynthetic gone ?_, ?_, hresult, hreport⟩
  · rw [hlisted]
    exact List.mem_cons_self
  · rw [hcode (calling []) rfl rfl, hlisted]

end CallRedirect
