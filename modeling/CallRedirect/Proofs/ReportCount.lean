import CallRedirect.Proofs.Idempotence
import CallRedirect.Proofs.Independence
import Mathlib.Algebra.BigOperators.Fin
import Mathlib.Data.List.Indexes

/-!
# How often a call is reported

A rule can look at one method many times: once for every time that a target declares it, and once
more for every target if the method is synthetic.  This module counts the entries that come of it.

* `Rule.lookCount` is the number of looks, and `Rule.entryCount` what that many looks report at
  one instruction.
* `Class.sumFirst` adds up weights over the instructions that the passes get to.  Weights after a
  change of the class are other weights before it (`sumFirst_mapFirst`).
* `Rule.entryCount_succ` is the step: the first look reports a matched call, and the others find
  what the rule has put there.

A call that gives way to one that the rule does not match is reported once, however often the
rule looks.  Only a rule that matches its own replacement reports each look
(`length_redirections_eq_sum`).
-/

namespace CallRedirect

/-! ## Weights of instructions -/

namespace Class

/-- The sum of the weights of all instructions, in the methods that are the first ones with their
identifier. -/
def sumFirst (cls : Class) (weight : MethodId → Instruction → Nat) : Nat :=
  (cls.methods.mapIdx fun index method =>
    if method.id ∈ cls.idsBefore index then 0 else (method.code.map (weight method.id)).sum).sum

theorem sumFirst_zero (cls : Class) : cls.sumFirst (fun _ _ => 0) = 0 := by
  simp [sumFirst, List.mapIdx_eq_zipIdx_map]

theorem sumFirst_add (cls : Class) (weight other : MethodId → Instruction → Nat) :
    cls.sumFirst (fun id instruction => weight id instruction + other id instruction) =
      cls.sumFirst weight + cls.sumFirst other := by
  simp only [sumFirst, List.mapIdx_eq_zipIdx_map, ← List.sum_map_add]
  congr 2
  funext placed
  split
  · rfl
  · exact List.sum_map_add

/-- Weights of a changed class are weights of the class before the change. -/
theorem sumFirst_mapFirst (cls : Class) (change : MethodId → Instruction → Instruction)
    (weight : MethodId → Instruction → Nat) :
    (cls.mapFirst change).sumFirst weight =
      cls.sumFirst fun id instruction => weight id (change id instruction) := by
  simp only [sumFirst, idsBefore_mapFirst]
  rw [mapFirst, List.mapIdx_mapIdx]
  congr 2
  funext index method
  rw [Function.comp_apply]
  by_cases hseen : method.id ∈ cls.idsBefore index
  · rw [if_pos hseen, if_pos hseen, if_pos hseen]
  · rw [if_neg hseen, if_neg hseen, Method.id_mapCode, if_neg hseen, Method.mapCode, List.map_map]
    rfl

/-- The weights of the instructions of one identifier stand in the method that it finds. -/
theorem sumFirst_single (cls : Class) (id : MethodId) (weight : Instruction → Nat) :
    (cls.sumFirst fun found instruction => if found = id then weight instruction else 0) =
      ((cls.method? id).map fun found => (found.2.code.map weight).sum).getD 0 := by
  rw [sumFirst, List.mapIdx_eq_ofFn, List.sum_ofFn]
  cases hfind : cls.method? id with
  | none =>
      have habsent := method?_eq_none_iff.1 hfind
      refine Finset.sum_eq_zero fun index _ => ?_
      simp [habsent _ (List.getElem_mem index.isLt)]
  | some found =>
      obtain ⟨index, method⟩ := found
      obtain ⟨hmethod, hid, hfirst⟩ := method?_eq_some_iff.1 hfind
      obtain ⟨h, rfl⟩ := List.getElem?_eq_some_iff.1 hmethod
      rw [Fintype.sum_eq_single ⟨index, h⟩]
      · simp [hid, hfirst]
      · -- no other method is the first one with the identifier
        rintro ⟨other, hbound⟩ hother
        simp only [List.get_eq_getElem]
        by_cases hseen : cls.methods[other].id ∈ cls.idsBefore other
        · rw [if_pos hseen]
        · have hapart : cls.methods[other].id ≠ id := by
            intro hsame
            have hagain := method?_eq_some_iff.2
              ⟨List.getElem?_eq_getElem hbound, hsame, hsame ▸ hseen⟩
            rw [hfind, Option.some.injEq, Prod.mk.injEq] at hagain
            exact hother (Fin.ext hagain.1.symm)
          simp [hseen, hapart]

end Class

/-! ## The looks at a method -/

namespace Rule

/-- How often a rule looks at the methods of a class that have an identifier: for every target
that names the class, as often as the target declares it and as often as it is synthetic. -/
def lookCount (rule : Rule) (cls : Class) (id : MethodId) : Nat :=
  ((rule.targetsFor cls.name).map fun target =>
    target.methods.countP (fun text => MethodId.parse text = id) +
      cls.methods.countP fun method => method.isSynthetic ∧ method.id = id).sum

theorem lookCount_eq_count (rule : Rule) (cls : Class) (id : MethodId) :
    rule.lookCount cls id = (rule.scannedMethods cls).count id := by
  have hdeclared (target : ClassTarget) : (target.methods.map MethodId.parse).count id =
      target.methods.countP (fun text => MethodId.parse text = id) := by
    rw [List.count_eq_countP, List.countP_map]
    rfl
  have hsynthetic : cls.syntheticIds.count id =
      cls.methods.countP (fun method => method.isSynthetic ∧ method.id = id) := by
    rw [Class.syntheticIds, List.count_eq_countP, List.countP_map, List.countP_filter]
    refine List.countP_congr fun method _ => ?_
    rw [decide_eq_true_eq, Bool.and_eq_true, Function.comp_apply, beq_iff_eq, and_comm]
    rfl
  rw [scannedMethods, List.count_flatMap, lookCount]
  congr 2
  funext target
  rw [Function.comp_apply, List.count_append, hdeclared, hsynthetic]

theorem lookCount_eq_zero_iff {rule : Rule} {cls : Class} {id : MethodId} :
    rule.lookCount cls id = 0 ↔ ¬ rule.TakesPart cls id := by
  rw [lookCount_eq_count, List.count_eq_zero, mem_scannedMethods_iff]

theorem lookCount_mapFirst (rule : Rule) (cls : Class)
    (change : MethodId → Instruction → Instruction) (id : MethodId) :
    rule.lookCount (cls.mapFirst change) id = rule.lookCount cls id := by
  rw [lookCount_eq_count, lookCount_eq_count, scannedMethods_mapFirst]

/-- What a number of looks of a rule report at an instruction.  A call that the rule does not
match is never reported.  A matched one is reported by the first look; the looks behind it report
what the rule built, if the rule matches that again. -/
def entryCount (rule : Rule) (looks : Nat) (instruction : Instruction) : Nat :=
  match rule.matchedCall? instruction with
  | none => 0
  | some call =>
      let built := rule.redirect.build call
      if looks = 0 then 0
      else if rule.matchesCall built.kind.opcode built then looks
      else 1

theorem entryCount_zero (rule : Rule) (instruction : Instruction) :
    rule.entryCount 0 instruction = 0 := by
  unfold entryCount
  split <;> rfl

/-- A rule finds its own replacement if it matches what it has built. -/
theorem matchedCall?_step_self {rule : Rule} {instruction : Instruction} {call : CallSite}
    (hmatch : rule.matchedCall? instruction = some call) :
    rule.matchedCall? (rule.step instruction) =
      if rule.matchesCall (rule.redirect.build call).kind.opcode (rule.redirect.build call) then
        some { rule.redirect.build call with offset := instruction.offset }
      else none := by
  rw [step_of_matchedCall? hmatch]
  rfl

/-- The first look reports a matched call, and the others come to what the rule put there. -/
theorem entryCount_succ (rule : Rule) (looks : Nat) (instruction : Instruction) :
    rule.entryCount (looks + 1) instruction =
      (if (rule.matchedCall? instruction).isSome then 1 else 0) +
        rule.entryCount looks (rule.step instruction) := by
  cases hmatch : rule.matchedCall? instruction with
  | none => simp [entryCount, hmatch, step_of_matchedCall?_none hmatch]
  | some call =>
      have hbuilt := matchedCall?_step_self hmatch
      by_cases hagain : rule.matchesCall (rule.redirect.build call).kind.opcode
          (rule.redirect.build call) = true
      · -- the replacement is built again as it is, so every look reports
        have hsame : rule.matchesCall (rule.redirect.build call).kind.opcode
            { rule.redirect.build call with offset := instruction.offset } = true := hagain
        rw [if_pos hagain] at hbuilt
        simp only [entryCount, hmatch, hbuilt, hagain, build_build, hsame, Option.isSome_some,
          if_true, Nat.add_one_ne_zero, if_false]
        split <;> omega
      · rw [if_neg hagain] at hbuilt
        simp [entryCount, hmatch, hbuilt, hagain]

/-- The number of entries of one look at a method. -/
theorem length_redirectionsIn (rule : Rule) (method : Method) :
    (rule.redirectionsIn method).length =
      (method.code.map fun instruction =>
        if (rule.matchedCall? instruction).isSome then 1 else 0).sum := by
  rw [redirectionsIn_eq, List.length_map]
  induction method.code with
  | nil => rfl
  | cons instruction rest ih =>
      cases hmatch : rule.matchedCall? instruction <;> simp [hmatch, ih, Nat.add_comm]

end Rule

/-! ## The length of the report -/

namespace Pass

/-- A look adds the matched calls of the method that it finds. -/
theorem length_redirections_visit (rule : Rule) (state : Pass) (id : MethodId) :
    (visit rule state id).report.redirections.length =
      state.report.redirections.length + state.result.sumFirst fun found instruction =>
        if found = id then (if (rule.matchedCall? instruction).isSome then 1 else 0) else 0 := by
  rw [redirections_visit_eq_append, List.length_append, Class.sumFirst_single]
  cases state.result.method? id with
  | none => rfl
  | some found => exact congrArg _ (rule.length_redirectionsIn found.2)

/-- Looking for all identifiers of a list reports at every instruction what so many looks report
there.  The induction is on the list; the class of the later looks is the one that the first look
leaves. -/
theorem length_redirections_foldl_visit (rule : Rule) (ids : List MethodId) (state : Pass) :
    (ids.foldl (visit rule) state).report.redirections.length =
      state.report.redirections.length + state.result.sumFirst fun id instruction =>
        rule.entryCount (ids.count id) instruction := by
  induction ids generalizing state with
  | nil => simp only [List.foldl_nil, List.count_nil, Rule.entryCount_zero, Class.sumFirst_zero,
      Nat.add_zero]
  | cons id ids ih =>
      rw [List.foldl_cons, ih, length_redirections_visit, result_visit, Class.sumFirst_mapFirst,
        Nat.add_assoc, ← Class.sumFirst_add]
      congr 2
      funext found instruction
      by_cases hhere : found = id
      · subst hhere
        rw [if_pos rfl, if_pos rfl, List.count_cons_self, Rule.entryCount_succ]
      · rw [if_neg hhere, if_neg hhere, List.count_cons_of_ne (Ne.symm hhere), Nat.zero_add]

theorem length_redirections_applyRule (rule : Rule) (state : Pass) :
    (state.applyRule rule).report.redirections.length =
      state.report.redirections.length + state.result.sumFirst fun id instruction =>
        rule.entryCount (rule.lookCount state.result id) instruction := by
  simp only [applyRule, length_redirections_foldl_visit, Rule.lookCount_eq_count]

end Pass

namespace RuleSet

/-- What the last rule of a set adds to the report: it counts at the instructions as the rules in
front of it leave them. -/
theorem length_redirections_concat (rules : RuleSet) (rule : Rule) (cls : Class) :
    (RuleSet.redirectClass (rules ++ [rule]) cls).report.redirections.length =
      (rules.redirectClass cls).report.redirections.length +
        cls.sumFirst fun id instruction =>
          rule.entryCount (rule.lookCount cls id)
            (rules.rewriteInstruction cls id instruction) := by
  rw [redirectClass, List.foldl_append, List.foldl_cons, List.foldl_nil,
    Pass.length_redirections_applyRule, ← redirectClass, result_redirectClass, rewriteClass,
    Class.sumFirst_mapFirst]
  simp only [Rule.lookCount_mapFirst]

/-- A rule that does not match what it builds adds one entry for each call that it matches. -/
theorem length_redirections_concat_of_spares {rule : Rule} (h : rule.Spares rule)
    (rules : RuleSet) (cls : Class) :
    (RuleSet.redirectClass (rules ++ [rule]) cls).report.redirections.length =
      (rules.redirectClass cls).report.redirections.length +
        cls.sumFirst fun id instruction =>
          if rule.TakesPart cls id ∧
              (rule.matchedCall? (rules.rewriteInstruction cls id instruction)).isSome then 1
          else 0 := by
  rw [length_redirections_concat]
  congr 2
  funext id instruction
  cases hmatch : rule.matchedCall? (rules.rewriteInstruction cls id instruction) with
  | none => simp [Rule.entryCount, hmatch]
  | some call =>
      have hspares := h _ call (Rule.matchedCall?_eq_some_iff.1 hmatch).2
      simp only [Rule.entryCount, hmatch, hspares, Rule.lookCount_eq_zero_iff, Option.isSome_some,
        and_true, ite_not, Bool.false_eq_true, if_false]

/-- The entries of the first rules of a set, by the number of rules. -/
theorem length_redirections_take (rules : RuleSet) (cls : Class) (count : Nat)
    (h : count ≤ rules.length) :
    (RuleSet.redirectClass (rules.take count) cls).report.redirections.length =
      ∑ position : Fin count, cls.sumFirst fun id instruction =>
        (rules[position.val]).entryCount ((rules[position.val]).lookCount cls id)
          (RuleSet.rewriteInstruction (rules.take position) cls id instruction) := by
  induction count with
  | zero => rfl
  | succ count ih =>
      have hbelow : count < rules.length := h
      rw [Fin.sum_univ_castSucc, ← List.take_append_getElem hbelow, length_redirections_concat,
        ih (Nat.le_of_lt hbelow)]
      rfl

end RuleSet

/-- The length of the report is a sum over the rules, and for each of them over the instructions
of the methods that are the first ones with their identifier: what the looks of the rule report
at the instruction as the rules in front of it leave it.  A rule that does not match what it
builds adds one entry for each call that it matches, in the methods that it looks at at all. -/
theorem length_redirections_eq_sum (rules : RuleSet) (cls : Class) :
    (rules.redirectClass cls).report.redirections.length =
        ∑ position : Fin rules.length, cls.sumFirst (fun id instruction =>
          (rules[position]).entryCount ((rules[position]).lookCount cls id)
            (RuleSet.rewriteInstruction (rules.take position) cls id instruction)) ∧
    ∀ rule : Rule, rule.Spares rule →
      (RuleSet.redirectClass (rules ++ [rule]) cls).report.redirections.length =
        (rules.redirectClass cls).report.redirections.length +
          cls.sumFirst fun id instruction =>
            if rule.TakesPart cls id ∧
                (rule.matchedCall? (rules.rewriteInstruction cls id instruction)).isSome then 1
            else 0 := by
  constructor
  · have hall := rules.length_redirections_take cls rules.length (Nat.le_refl _)
    rwa [List.take_length] at hall
  · intro rule hspares
    exact RuleSet.length_redirections_concat_of_spares hspares rules cls

/-- A synthetic method that is declared twice is looked at three times.  The first rule matches
its own replacement and reports each look; the second one does not and reports one. -/
theorem length_redirections_eq_sum_three_looks :
    let targets : List ClassTarget := [⟨"A", ["m()V", "m()V"]⟩]
    let hook : Rule := ⟨"hook", .static, "h", "()V", targets, .invokeStatic "S" "h" none⟩
    let check : Rule := ⟨"check", .virtual, "f", "()V", targets, .rename "g" none⟩
    let cls : Class :=
      ⟨"A", [⟨"m", "()V", syntheticFlag, [⟨0, 0xb8, some ⟨"S", "h", "()V", .static, 0⟩⟩,
        ⟨3, 0xb6, some ⟨"B", "f", "()V", .virtual, 3⟩⟩]⟩], 0⟩
    check.lookCount cls ⟨"m", "()V"⟩ = 3 ∧ check.Spares check ∧
      (RuleSet.redirectClass [hook] cls).report.redirections.length = 3 ∧
      (RuleSet.redirectClass ([hook] ++ [check]) cls).report.redirections.length = 3 + 1 := by
  intro targets hook check cls
  obtain ⟨hsum, hconcat⟩ := length_redirections_eq_sum [hook] cls
  have hspares : check.Spares check := by
    intro opcode call _
    -- the rule builds calls of another name
    simp [check, Rule.matchesCall, Redirect.build]
  have hhook : (RuleSet.redirectClass [hook] cls).report.redirections.length = 3 :=
    hsum.trans (by decide)
  refine ⟨by decide, hspares, hhook, ?_⟩
  rw [hconcat check hspares, hhook]
  decide

end CallRedirect
