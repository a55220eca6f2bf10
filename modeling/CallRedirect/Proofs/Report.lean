import CallRedirect.Proofs.Rewriting

/-!
# What the passes report

A report grows by what each look at a method adds.  The entries of one look are
the calls that the rule matches in the method as it is then, each with the call
that the rule builds for it (`Rule.redirectionsIn_eq`).

Which methods are missing does not depend on instructions at all: it is settled
by the class as it was before the first rule (`RuleSet.missing_redirectClass`).

All passes of a run consist of visits, so what every visit keeps holds at the end
(`Pass.foldl_applyRule_induction`).
-/

namespace CallRedirect

/-! ## Runs as sequences of visits -/

namespace Pass

theorem takesPart_visit_iff {rule other : Rule} {state : Pass} {id found : MethodId} :
    other.TakesPart (visit rule state id).result found ↔ other.TakesPart state.result found := by
  rw [result_visit, Rule.takesPart_mapFirst_iff]

theorem foldl_visit_induction {good : Pass → Prop} {rule : Rule} {ids : List MethodId}
    {state : Pass} (hids : ∀ id ∈ ids, rule.TakesPart state.result id)
    (hvisit : ∀ state id, rule.TakesPart state.result id → good state → good (visit rule state id))
    (h : good state) : good (ids.foldl (visit rule) state) := by
  induction ids generalizing state with
  | nil => exact h
  | cons id ids ih =>
      obtain ⟨hhere, hrest⟩ := List.forall_mem_cons.1 hids
      exact ih (fun later hlater => takesPart_visit_iff.2 (hrest later hlater))
        (hvisit state id hhere h)

/-- What holds at the start and is kept by every visit, of a method that the rule looks at
in the class as it is then, holds at the end of the run. -/
theorem foldl_applyRule_induction {good : Pass → Prop} {rules : List Rule} {state : Pass}
    (hvisit : ∀ rule ∈ rules, ∀ state id, rule.TakesPart state.result id → good state →
      good (visit rule state id))
    (h : good state) : good (rules.foldl applyRule state) := by
  induction rules generalizing state with
  | nil => exact h
  | cons rule rules ih =>
      obtain ⟨hhere, hrest⟩ := List.forall_mem_cons.1 hvisit
      refine ih hrest (foldl_visit_induction (fun id hid => ?_) hhere h)
      exact Rule.mem_scannedMethods_iff.1 hid

end Pass

/-! ## The entries of one look at a method -/

/-- The identifier of the method that an entry is about. -/
def Redirection.id (entry : Redirection) : MethodId := ⟨entry.method, entry.descriptor⟩

namespace Rule

/-- The entry for a call that a rule replaces in a method. -/
def redirectionOf (rule : Rule) (method : Method) (call : CallSite) : Redirection where
  rule := rule.name
  method := method.name
  descriptor := method.descriptor
  matched := call
  replacement := rule.redirect.build call

theorem map_snd_matchesFrom (rule : Rule) (start : Nat) (code : List Instruction) :
    (rule.matchesFrom start code).map Prod.snd = code.filterMap rule.matchedCall? := by
  induction code generalizing start with
  | nil => rfl
  | cons instruction rest ih =>
      cases hmatch : rule.matchedCall? instruction <;> simp [matchesFrom, hmatch, ih]

theorem redirectionsIn_eq (rule : Rule) (method : Method) :
    rule.redirectionsIn method =
      (method.code.filterMap rule.matchedCall?).map (rule.redirectionOf method) := by
  rw [redirectionsIn, matchingCalls_eq, ← map_snd_matchesFrom rule 0, List.map_map]
  rfl

end Rule

theorem Pass.redirections_visit (rule : Rule) (state : Pass) (id : MethodId) :
    (visit rule state id).report.redirections =
      match state.result.method? id with
      | none => state.report.redirections
      | some (_, method) => state.report.redirections ++ rule.redirectionsIn method := by
  unfold visit
  cases state.result.method? id <;> rfl

/-- Every entry was made by one of the rules, at an instruction that has what the instructions
of the class have and what every step keeps. -/
theorem RuleSet.exists_rule_of_mem_redirections {rules : RuleSet} {cls : Class}
    {good : Instruction → Prop}
    (hcls : ∀ method ∈ cls.methods, ∀ instruction ∈ method.code, good instruction)
    (hstep : ∀ rule ∈ rules, ∀ instruction, good instruction → good (rule.step instruction))
    {entry : Redirection} (h : entry ∈ (rules.redirectClass cls).report.redirections) :
    ∃ rule ∈ rules, ∃ (method : Method) (instruction : Instruction),
      method.id ∈ cls.methods.map Method.id ∧ good instruction ∧
        rule.matchedCall? instruction = some entry.matched ∧
        entry = rule.redirectionOf method entry.matched := by
  let made (entry : Redirection) : Prop :=
    ∃ rule ∈ rules, ∃ (method : Method) (instruction : Instruction),
      method.id ∈ cls.methods.map Method.id ∧ good instruction ∧
        rule.matchedCall? instruction = some entry.matched ∧
        entry = rule.redirectionOf method entry.matched
  let within (state : Pass) : Prop :=
    state.result.methods.map Method.id = cls.methods.map Method.id ∧
      (∀ method ∈ state.result.methods, ∀ instruction ∈ method.code, good instruction) ∧
      ∀ entry ∈ state.report.redirections, made entry
  have hvisit : ∀ rule ∈ rules, ∀ state id, rule.TakesPart state.result id → within state →
      within (Pass.visit rule state id) := by
    intro rule hrule state id _ hwithin
    obtain ⟨hids, hgood, hentries⟩ := hwithin
    refine ⟨?_, ?_, ?_⟩
    · rw [Pass.result_visit, Class.map_mapFirst _ Method.id fun _ => rfl, hids]
    · rw [Pass.result_visit]
      refine Class.forall_code_mapFirst hgood fun found instruction hinstruction => ?_
      split
      · exact hstep rule hrule instruction hinstruction
      · exact hinstruction
    · rw [Pass.redirections_visit]
      cases hfind : state.result.method? id with
      | none => exact hentries
      | some found =>
          obtain ⟨index, method⟩ := found
          intro entry hentry
          rcases List.mem_append.1 hentry with hold | hnew
          · exact hentries entry hold
          · rw [Rule.redirectionsIn_eq] at hnew
            obtain ⟨call, hcall, rfl⟩ := List.mem_map.1 hnew
            obtain ⟨instruction, hinstruction, hmatch⟩ := List.mem_filterMap.1 hcall
            have hmethod := List.mem_of_getElem? (Class.method?_eq_some_iff.1 hfind).1
            exact ⟨rule, hrule, method, instruction, hids ▸ List.mem_map_of_mem hmethod,
              hgood method hmethod instruction hinstruction, hmatch, rfl⟩
  have hstart : within (Pass.start cls) :=
    ⟨rfl, hcls, fun _ hentry => absurd hentry List.not_mem_nil⟩
  exact (Pass.foldl_applyRule_induction hvisit hstart).2.2 entry h

/-- Every entry is about a method of the class. -/
theorem RuleSet.id_mem_of_mem_redirections {rules : RuleSet} {cls : Class} {entry : Redirection}
    (h : entry ∈ (rules.redirectClass cls).report.redirections) :
    entry.id ∈ cls.methods.map Method.id := by
  have hany : ∀ method ∈ cls.methods, ∀ instruction ∈ method.code, True :=
    fun _ _ _ _ => trivial
  obtain ⟨rule, -, method, instruction, hmethod, -, -, hentry⟩ :=
    exists_rule_of_mem_redirections hany (fun _ _ _ _ => trivial) h
  have hid : entry.id = method.id := by rw [hentry]; rfl
  rw [hid]
  exact hmethod

/-! ## The missing methods -/

/-- Whether a class has no method with an identifier. -/
def Class.lacks (cls : Class) (id : MethodId) : Bool := (cls.method? id).isNone

theorem Class.lacks_eq_true_iff {cls : Class} {id : MethodId} :
    cls.lacks id = true ↔ id ∉ cls.methods.map Method.id := by
  rw [lacks, Option.isNone_iff_eq_none, method?_eq_none_iff, List.mem_map]
  constructor
  · rintro hnone ⟨method, hmethod, hid⟩
    exact hnone method hmethod hid
  · intro hnone method hmethod hid
    exact hnone ⟨method, hmethod, hid⟩

theorem Class.lacks_mapFirst (cls : Class) (change : MethodId → Instruction → Instruction) :
    (cls.mapFirst change).lacks = cls.lacks := by
  funext id
  have hids : (cls.mapFirst change).methods.map Method.id = cls.methods.map Method.id :=
    cls.map_mapFirst Method.id fun _ => rfl
  rw [Bool.eq_iff_iff, lacks_eq_true_iff, lacks_eq_true_iff, hids]

/-- The methods that a rule looks for in a class and does not find. -/
def Rule.missingIn (rule : Rule) (cls : Class) : List MissingMethod :=
  ((rule.scannedMethods cls).filter cls.lacks).map (⟨rule.name, ·⟩)

theorem Rule.missingIn_mapFirst (rule : Rule) (cls : Class)
    (change : MethodId → Instruction → Instruction) :
    rule.missingIn (cls.mapFirst change) = rule.missingIn cls := by
  rw [missingIn, missingIn, scannedMethods_mapFirst, Class.lacks_mapFirst]

namespace Pass

theorem missing_visit (rule : Rule) (state : Pass) (id : MethodId) :
    (visit rule state id).report.missing =
      state.report.missing ++ if state.result.lacks id then [⟨rule.name, id⟩] else [] := by
  unfold visit Class.lacks
  cases state.result.method? id with
  | none => rfl
  | some found => exact (List.append_nil _).symm

theorem missing_foldl_visit (rule : Rule) (ids : List MethodId) (state : Pass) :
    (ids.foldl (visit rule) state).report.missing =
      state.report.missing ++ (ids.filter state.result.lacks).map (⟨rule.name, ·⟩) := by
  induction ids generalizing state with
  | nil => exact (List.append_nil _).symm
  | cons id ids ih =>
      rw [List.foldl_cons, ih, missing_visit, result_visit, Class.lacks_mapFirst,
        List.append_assoc]
      by_cases hlacks : state.result.lacks id = true
      · rw [List.filter_cons_of_pos hlacks, if_pos hlacks]
        rfl
      · rw [List.filter_cons_of_neg hlacks, if_neg hlacks]
        rfl

theorem missing_applyRule (rule : Rule) (state : Pass) :
    (state.applyRule rule).report.missing =
      state.report.missing ++ rule.missingIn state.result :=
  missing_foldl_visit rule (rule.scannedMethods state.result) state

theorem missing_foldl_applyRule (rules : List Rule) (state : Pass) :
    (rules.foldl applyRule state).report.missing =
      state.report.missing ++ rules.flatMap fun rule => rule.missingIn state.result := by
  induction rules generalizing state with
  | nil => exact (List.append_nil _).symm
  | cons rule rules ih =>
      rw [List.foldl_cons, ih, missing_applyRule, result_applyRule, List.flatMap_cons,
        List.append_assoc]
      simp only [Rule.missingIn_mapFirst]

end Pass

/-- The missing methods are those of the rules in order, all looked for in the class as
it was before any of its calls was replaced. -/
theorem RuleSet.missing_redirectClass (rules : RuleSet) (cls : Class) :
    (rules.redirectClass cls).report.missing = rules.flatMap fun rule => rule.missingIn cls := by
  rw [redirectClass, Pass.missing_foldl_applyRule]
  rfl

end CallRedirect
