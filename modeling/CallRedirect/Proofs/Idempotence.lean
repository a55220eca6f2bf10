import CallRedirect.Proofs.Report
import Mathlib.Data.List.Induction

/-!
# Redirecting a class again

Rules see each other's replacements, and a rule may match its own.  A second run
over the redirected class still changes nothing, unless a rule builds a call
that a rule in front of it matches: in the first run that rule had its turn
before the call was there.

* `RuleSet.Forward` excludes this.  A set of one rule is always forward.
* `Rule.step_foldl_step`: in a forward set no rule changes what the set leaves
  of an instruction.  The last rule that fired keeps its own result, those in
  front of it do not match it, and those behind it did not match it.
* `Class.Settled` says this of a whole class, and `Pass.Idle` is the invariant
  of the second run: the class stays, and every entry of the report replaces a
  call by itself.
-/

namespace CallRedirect

/-! ## Rules that do not undo each other -/

/-- What `later` builds for a call that it matches is nothing that `earlier` matches. -/
def Rule.Spares (earlier later : Rule) : Prop :=
  ∀ opcode call, later.matchesCall opcode call = true →
    earlier.matchesCall (later.redirect.build call).kind.opcode (later.redirect.build call) = false

/-- No rule builds a call that a rule in front of it matches. -/
def RuleSet.Forward (rules : RuleSet) : Prop := rules.Pairwise Rule.Spares

/-- What a run over the redirected class does if nothing is left to be done. -/
structure Pass.Repeats (first second : Pass) : Prop where
  result : second.result = first.result
  missing : second.report.missing = first.report.missing
  idle : ∀ entry ∈ second.report.redirections, entry.replacement = entry.matched

/-! ## What the rules leave of an instruction -/

namespace Rule

theorem matchedCall?_step_of_spares {earlier later : Rule} (h : earlier.Spares later)
    {instruction : Instruction} {call : CallSite}
    (hmatch : later.matchedCall? instruction = some call) :
    earlier.matchedCall? (later.step instruction) = none := by
  obtain ⟨-, hmatches⟩ := matchedCall?_eq_some_iff.1 hmatch
  rw [step_of_matchedCall? hmatch]
  refine Option.filter_eq_none_iff.2 ?_
  intro placed hplaced
  cases hplaced
  -- the call got the offset of the instruction, which no rule looks at
  exact Bool.eq_false_iff.1 (h instruction.opcode call hmatches)

theorem step_step_of_spares {earlier later : Rule} (h : earlier.Spares later)
    {instruction : Instruction} {call : CallSite}
    (hmatch : later.matchedCall? instruction = some call) :
    earlier.step (later.step instruction) = later.step instruction :=
  step_of_matchedCall?_none (matchedCall?_step_of_spares h hmatch)

/-- No rule of a forward set changes what the rules of the set leave of an instruction. -/
theorem step_foldl_step {rules : List Rule} (h : rules.Pairwise Spares)
    (instruction : Instruction) :
    ∀ rule ∈ rules, rule.step (rules.foldl (fun instruction rule => rule.step instruction)
      instruction) = rules.foldl (fun instruction rule => rule.step instruction) instruction := by
  induction rules using List.reverseRecOn with
  | nil => simp
  | append_singleton rules last ih =>
      obtain ⟨hrules, -, hlast⟩ := List.pairwise_append.1 h
      rw [List.foldl_append, List.foldl_cons, List.foldl_nil]
      intro rule hmem
      rcases List.mem_append.1 hmem with hrule | hrule
      · cases hmatch : last.matchedCall?
            (rules.foldl (fun instruction rule => rule.step instruction) instruction) with
        | none =>
            rw [step_of_matchedCall?_none hmatch]
            exact ih hrules rule hrule
        | some call => exact step_step_of_spares (hlast rule hrule last (by simp)) hmatch
      · obtain rfl := List.mem_singleton.1 hrule
        exact rule.step_step _

end Rule

theorem RuleSet.Forward.step_rewriteInstruction {rules : RuleSet} (h : rules.Forward) {cls : Class}
    {id : MethodId} {rule : Rule} (hrule : rule ∈ rules) (htakes : rule.TakesPart cls id)
    (instruction : Instruction) :
    rule.step (rules.rewriteInstruction cls id instruction) =
      rules.rewriteInstruction cls id instruction := by
  have hpart : (rules.filter fun rule => rule.TakesPart cls id).Pairwise Rule.Spares :=
    h.sublist List.filter_sublist
  exact Rule.step_foldl_step hpart instruction rule
    (List.mem_filter.2 ⟨hrule, decide_eq_true htakes⟩)

/-! ## Settled classes -/

/-- No rule changes an instruction of a method that it looks at. -/
def Class.Settled (rules : RuleSet) (cls : Class) : Prop :=
  ∀ rule ∈ rules, ∀ (id : MethodId) (index : Nat) (method : Method), rule.TakesPart cls id →
    cls.method? id = some (index, method) →
    ∀ instruction ∈ method.code, rule.step instruction = instruction

theorem RuleSet.Forward.settled_rewriteClass {rules : RuleSet} (h : rules.Forward)
    (cls : Class) : (rules.rewriteClass cls).Settled rules := by
  intro rule hrule id index method htakes hfind instruction hinstruction
  obtain ⟨hmethod, hid, hfirst⟩ := Class.method?_eq_some_iff.1 hfind
  rw [rewriteClass, Class.getElem?_mapFirst] at hmethod
  obtain ⟨before, -, hbefore⟩ := Option.map_eq_some_iff.1 hmethod
  rw [rewriteClass, Class.idsBefore_mapFirst, ← hid] at hfirst
  split at hbefore
  · next hseen => exact absurd (hbefore ▸ hseen) hfirst
  · subst hbefore
    obtain ⟨old, -, rfl⟩ := List.mem_map.1 hinstruction
    have htakesBefore : rule.TakesPart cls before.id := by
      rw [rewriteClass, Rule.takesPart_mapFirst_iff] at htakes
      exact hid ▸ htakes
    exact h.step_rewriteInstruction hrule htakesBefore old

/-! ## The second run -/

/-- A run that leaves the class `cls` as it is and replaces calls by themselves only. -/
structure Pass.Idle (cls : Class) (state : Pass) : Prop where
  result : state.result = cls
  entries : ∀ entry ∈ state.report.redirections, entry.replacement = entry.matched

/-- A rule that does not change an instruction builds the call that it matches there. -/
theorem Rule.build_of_step_eq_self {rule : Rule} {instruction : Instruction} {call : CallSite}
    (hmatch : rule.matchedCall? instruction = some call)
    (hstep : rule.step instruction = instruction) : rule.redirect.build call = call := by
  obtain ⟨hcall, -⟩ := matchedCall?_eq_some_iff.1 hmatch
  rw [step_of_matchedCall? hmatch] at hstep
  have hsame : { rule.redirect.build call with offset := instruction.offset } = call := by
    have hcalls := congrArg Instruction.call hstep
    rw [hcall] at hcalls
    exact Option.some.inj hcalls
  have hoffset : call.offset = instruction.offset := by
    rw [← hsame]
  calc rule.redirect.build call
      = { rule.redirect.build call with offset := (rule.redirect.build call).offset } := rfl
    _ = { rule.redirect.build call with offset := instruction.offset } := by
        rw [Redirect.offset_build, hoffset]
    _ = call := hsame

namespace Pass.Idle

variable {rules : RuleSet} {cls : Class} {state : Pass} {rule : Rule}

theorem start (cls : Class) : Idle cls (Pass.start cls) :=
  ⟨rfl, fun _ hentry => absurd hentry List.not_mem_nil⟩

theorem visit (hsettled : cls.Settled rules) (hrule : rule ∈ rules) {id : MethodId}
    (htakes : rule.TakesPart state.result id) (h : Idle cls state) :
    Idle cls (Pass.visit rule state id) := by
  rw [h.result] at htakes
  constructor
  · rw [Pass.result_visit, h.result]
    refine Class.mapFirst_eq_self_of_code fun index method hmethod hfirst instruction hmem => ?_
    by_cases hhere : method.id = id
    · rw [if_pos hhere]
      have hfind := Class.method?_eq_some_iff.2 ⟨hmethod, hhere, hhere ▸ hfirst⟩
      exact hsettled rule hrule id index method htakes hfind instruction hmem
    · rw [if_neg hhere]
  · rw [Pass.redirections_visit, h.result]
    cases hfind : cls.method? id with
    | none => exact h.entries
    | some found =>
        obtain ⟨index, method⟩ := found
        intro entry hentry
        rcases List.mem_append.1 hentry with hold | hnew
        · exact h.entries entry hold
        · rw [Rule.redirectionsIn_eq] at hnew
          obtain ⟨call, hcall, rfl⟩ := List.mem_map.1 hnew
          obtain ⟨instruction, hmem, hmatch⟩ := List.mem_filterMap.1 hcall
          have hstep := hsettled rule hrule id index method htakes hfind instruction hmem
          exact Rule.build_of_step_eq_self hmatch hstep

end Pass.Idle

theorem RuleSet.Forward.repeats {rules : RuleSet} (h : rules.Forward) (cls : Class) :
    (rules.redirectClass cls).Repeats (rules.redirectClass (rules.redirectClass cls).result) := by
  have hresult := rules.result_redirectClass cls
  have hsettled := h.settled_rewriteClass cls
  have hidle : Pass.Idle (rules.rewriteClass cls) (rules.redirectClass (rules.rewriteClass cls)) :=
    Pass.foldl_applyRule_induction (fun _ hrule _ _ htakes hstate =>
      hstate.visit hsettled hrule htakes) (Pass.Idle.start _)
  rw [← hresult] at hidle
  refine ⟨hidle.result, ?_, hidle.entries⟩
  rw [missing_redirectClass, missing_redirectClass, hresult]
  simp only [rewriteClass, Rule.missingIn_mapFirst]

/-- Redirecting a redirected class with the same rules changes nothing, misses the same
methods and only replaces calls by themselves, if no rule builds a call that a rule in
front of it matches.  With one rule this is always so. -/
theorem redirectClass_again :
    (∀ rules : RuleSet, rules.Forward → ∀ cls : Class,
      (rules.redirectClass cls).Repeats
        (rules.redirectClass (rules.redirectClass cls).result)) ∧
    ∀ (rule : Rule) (cls : Class),
      (RuleSet.redirectClass [rule] cls).Repeats
        (RuleSet.redirectClass [rule] (RuleSet.redirectClass [rule] cls).result) := by
  refine ⟨fun rules h cls => h.repeats cls, fun rule cls => ?_⟩
  have hsingle : RuleSet.Forward [rule] := List.pairwise_singleton _ rule
  exact hsingle.repeats cls

/-- The second rule matches its own result, so the second run reports a replacement again. -/
theorem redirectClass_again_own_match :
    let rules : RuleSet :=
      [⟨"first", .virtual, "f", "()V", [⟨"A", ["m()V"]⟩], .invokeStatic "S" "h" (some "()V")⟩,
        ⟨"second", .static, "h", "()V", [⟨"A", ["m()V"]⟩], .invokeStatic "S" "h" none⟩]
    let body (instruction : Instruction) : Class := ⟨"A", [⟨"m", "()V", 0, [instruction]⟩], 0⟩
    let built : CallSite := ⟨"S", "h", "()V", .static, 3⟩
    let cls := body ⟨3, 0xb6, some ⟨"B", "f", "()V", .virtual, 3⟩⟩
    let done := body ⟨3, 0xb8, some built⟩
    rules.Forward ∧ (rules.redirectClass cls).result = done ∧
      (rules.redirectClass done).report.redirections = [⟨"second", "m", "()V", built, built⟩] ∧
      (rules.redirectClass cls).Repeats (rules.redirectClass done) := by
  intro rules body built cls done
  have hforward : rules.Forward := by
    refine List.pairwise_pair.2 fun opcode call _ => ?_
    -- the second rule builds static calls, and the first one matches virtual ones
    rfl
  have hdone : (rules.redirectClass cls).result = done := by decide
  have hagain := redirectClass_again.1 rules hforward cls
  rw [hdone] at hagain
  exact ⟨hforward, hdone, by decide, hagain⟩

end CallRedirect
