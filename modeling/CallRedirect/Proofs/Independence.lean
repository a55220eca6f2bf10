import CallRedirect.Proofs.Idempotence
import Mathlib.Data.List.Pairwise

/-!
# Rules in another order

The order of the rules matters where a rule sees what another one has done.  Two
rules are apart if no call is matched by both and neither of them matches what
the other one builds.  If all rules of a set are apart, at most one of them ever
fires at an instruction.

* `Rule.Apart.matchedCall?_step`: what a rule matches at an instruction is not
  changed by a step of a rule that is apart from it.
* `Class.SeenAlike` says that a rule finds the same calls in two classes.  It is
  kept by the visits of the rule, which therefore report the same.
* `RuleSet.Apart.redirections_redirectClass`: each rule reports what it would
  report alone.

Hence a permutation of the rules gives the same class, and it only permutes the
report (`redirectClass_perm`).  The entries themselves are the same, however
often a rule looks at a method.
-/

namespace CallRedirect

/-! ## Rules that are apart -/

/-- The calls that a rule matches: their kind, callee name and callee descriptor. -/
def Rule.signature (rule : Rule) : CallKind × String × String :=
  (rule.kind, rule.method, rule.descriptor)

/-- Two rules match different calls, and neither matches what the other one builds. -/
structure Rule.Apart (rule other : Rule) : Prop where
  signature : rule.signature ≠ other.signature
  spares : rule.Spares other
  spared : other.Spares rule

/-- The rules of a set are apart from each other. -/
def RuleSet.Apart (rules : RuleSet) : Prop := rules.Pairwise Rule.Apart

/-- Kinds have different opcodes. -/
theorem CallKind.opcode_injective : Function.Injective opcode := by
  intro first second h
  have hkinds := congrArg ofOpcode? h
  rwa [ofOpcode?_opcode, ofOpcode?_opcode, Option.some.injEq] at hkinds

namespace Rule

namespace Apart

variable {rule other : Rule}

theorem symm (h : rule.Apart other) : other.Apart rule :=
  ⟨h.signature.symm, h.spared, h.spares⟩

instance : Std.Symm Rule.Apart := ⟨fun _ _ => symm⟩

/-- A call that one of two rules matches is not matched by the other one. -/
theorem matchedCall?_eq_none (h : rule.Apart other) {instruction : Instruction} {call : CallSite}
    (hmatch : other.matchedCall? instruction = some call) :
    rule.matchedCall? instruction = none := by
  obtain ⟨hcall, hother⟩ := matchedCall?_eq_some_iff.1 hmatch
  obtain ⟨hopcode, hname, hdescriptor⟩ := matchesCall_iff.1 hother
  rw [Option.eq_none_iff_forall_not_mem]
  intro again hagain
  obtain ⟨hsame, hrule⟩ := matchedCall?_eq_some_iff.1 hagain
  rw [hcall, Option.some.injEq] at hsame
  subst hsame
  obtain ⟨hopcode', hname', hdescriptor'⟩ := matchesCall_iff.1 hrule
  have hkind : rule.kind = other.kind := CallKind.opcode_injective (hopcode'.symm.trans hopcode)
  apply h.signature
  rw [Rule.signature, Rule.signature, hkind, ← hname', hname, ← hdescriptor', hdescriptor]

/-- A step of another rule does not change what a rule matches. -/
theorem matchedCall?_step (h : rule.Apart other) (instruction : Instruction) :
    rule.matchedCall? (other.step instruction) = rule.matchedCall? instruction := by
  cases hmatch : other.matchedCall? instruction with
  | none => rw [step_of_matchedCall?_none hmatch]
  | some call =>
      rw [h.matchedCall?_eq_none hmatch]
      exact matchedCall?_step_of_spares h.spares hmatch

/-- At most one of the two steps changes the instruction, so their order does not matter. -/
theorem step_comm (h : rule.Apart other) (instruction : Instruction) :
    other.step (rule.step instruction) = rule.step (other.step instruction) := by
  cases hmatch : other.matchedCall? instruction with
  | some call =>
      have hnone := h.matchedCall?_eq_none hmatch
      have hnone' := (h.matchedCall?_step instruction).trans hnone
      rw [step_of_matchedCall?_none hnone, step_of_matchedCall?_none hnone']
  | none =>
      have hnone' := (h.symm.matchedCall?_step instruction).trans hmatch
      rw [step_of_matchedCall?_none hmatch, step_of_matchedCall?_none hnone']

end Apart

end Rule

/-! ## Rules in another order at one instruction -/

namespace RuleSet

variable {rules others : RuleSet}

theorem Apart.step_comm (h : rules.Apart) {rule other : Rule} (hrule : rule ∈ rules)
    (hother : other ∈ rules) (instruction : Instruction) :
    other.step (rule.step instruction) = rule.step (other.step instruction) := by
  by_cases hsame : rule = other
  · rw [hsame]
  · have hapart : rule.Apart other := h.forall hrule hother hsame
    exact hapart.step_comm instruction

theorem Apart.rewriteClass_perm (h : rules.Apart) (hperm : rules.Perm others) (cls : Class) :
    others.rewriteClass cls = rules.rewriteClass cls := by
  unfold rewriteClass
  congr 1
  funext id instruction
  have hpart := hperm.filter fun rule => rule.TakesPart cls id
  refine (hpart.foldl_eq' ?_ instruction).symm
  intro rule hrule other hother instruction
  exact h.step_comm (List.mem_of_mem_filter hrule) (List.mem_of_mem_filter hother) instruction

end RuleSet

/-! ## What a rule reports of two classes -/

theorem Class.method?_mapFirst (cls : Class) (change : MethodId → Instruction → Instruction)
    (id : MethodId) :
    (cls.mapFirst change).method? id =
      (cls.method? id).map fun found => (found.1, found.2.mapCode (change id)) := by
  apply Option.ext
  rintro ⟨index, method⟩
  simp only [Option.map_eq_some_iff, Prod.exists, Prod.mk.injEq, method?_eq_some_iff,
    getElem?_mapFirst, idsBefore_mapFirst]
  constructor
  · rintro ⟨⟨before, hbefore, hchanged⟩, hid, hfirst⟩
    split at hchanged
    · next hseen =>
      subst hchanged
      exact absurd (hid ▸ hseen) hfirst
    · subst hchanged
      exact ⟨index, before, ⟨hbefore, hid, hfirst⟩, rfl, by rw [← hid]; rfl⟩
  · rintro ⟨_, before, ⟨hbefore, hid, hfirst⟩, rfl, rfl⟩
    refine ⟨⟨before, hbefore, ?_⟩, hid, hfirst⟩
    rw [hid, if_neg hfirst]

/-- A rule finds the same calls in two classes, which differ only in their instructions. -/
def Class.SeenAlike (rule : Rule) (first second : Class) : Prop :=
  ∃ (cls : Class) (f g : MethodId → Instruction → Instruction),
    first = cls.mapFirst f ∧ second = cls.mapFirst g ∧
      ∀ id instruction, (f id instruction).offset = (g id instruction).offset ∧
        rule.matchedCall? (f id instruction) = rule.matchedCall? (g id instruction)

/-- What a rule finds in an instruction after its own step follows from what it found before. -/
theorem Rule.matchedCall?_step_congr {rule : Rule} {first second : Instruction}
    (hoffset : first.offset = second.offset)
    (hmatch : rule.matchedCall? first = rule.matchedCall? second) :
    rule.matchedCall? (rule.step first) = rule.matchedCall? (rule.step second) := by
  cases hsecond : rule.matchedCall? second with
  | none =>
      rw [hsecond] at hmatch
      rw [step_of_matchedCall?_none hmatch, step_of_matchedCall?_none hsecond, hmatch, hsecond]
  | some call =>
      rw [hsecond] at hmatch
      have hsame : rule.step first = rule.step second := by
        rw [step_of_matchedCall? hmatch, step_of_matchedCall? hsecond]
        simp only [Instruction.withCall, hoffset]
      rw [hsame]

namespace Class.SeenAlike

variable {rule : Rule} {first second : Class}

theorem visit {start other : Pass} (h : SeenAlike rule start.result other.result) (id : MethodId) :
    SeenAlike rule (Pass.visit rule start id).result (Pass.visit rule other id).result := by
  obtain ⟨cls, f, g, hfirst, hsecond, halike⟩ := h
  rw [Pass.result_visit, Pass.result_visit, hfirst, hsecond, mapFirst_mapFirst, mapFirst_mapFirst]
  refine ⟨cls, _, _, rfl, rfl, fun found instruction => ?_⟩
  obtain ⟨hoffset, hmatch⟩ := halike found instruction
  by_cases hhere : found = id
  -- the method that is visited takes a step in both classes, all others stay
  · simp only [hhere, if_true, Rule.offset_step]
    subst hhere
    exact ⟨hoffset, Rule.matchedCall?_step_congr hoffset hmatch⟩
  · simp only [hhere, if_false]
    exact ⟨hoffset, hmatch⟩

theorem scannedMethods_eq (h : SeenAlike rule first second) :
    rule.scannedMethods first = rule.scannedMethods second := by
  obtain ⟨cls, f, g, rfl, rfl, -⟩ := h
  rw [Rule.scannedMethods_mapFirst, Rule.scannedMethods_mapFirst]

/-- One look at the same method finds the same calls. -/
theorem redirectionsIn_eq (h : SeenAlike rule first second) (id : MethodId) :
    (first.method? id).map (fun found => rule.redirectionsIn found.2) =
      (second.method? id).map (fun found => rule.redirectionsIn found.2) := by
  obtain ⟨cls, f, g, rfl, rfl, halike⟩ := h
  rw [method?_mapFirst, method?_mapFirst, Option.map_map, Option.map_map]
  congr 1
  funext found
  simp only [Function.comp_apply, Rule.redirectionsIn_eq, Method.mapCode, List.filterMap_map]
  have hmatch : (fun instruction => rule.matchedCall? (f id instruction)) =
      fun instruction => rule.matchedCall? (g id instruction) :=
    funext fun instruction => (halike id instruction).2
  rw [hmatch]
  rfl

end Class.SeenAlike

namespace Pass

theorem redirections_visit_eq_append (rule : Rule) (state : Pass) (id : MethodId) :
    (visit rule state id).report.redirections = state.report.redirections ++
      ((state.result.method? id).map fun found => rule.redirectionsIn found.2).getD [] := by
  rw [redirections_visit]
  cases state.result.method? id with
  | none => exact (List.append_nil _).symm
  | some found => rfl

/-- A rule adds the same entries in two runs if it finds the same calls in both. -/
theorem redirections_foldl_visit {rule : Rule} (ids : List MethodId) {start other : Pass}
    (h : Class.SeenAlike rule start.result other.result) :
    ∃ entries, (ids.foldl (visit rule) start).report.redirections =
        start.report.redirections ++ entries ∧
      (ids.foldl (visit rule) other).report.redirections =
        other.report.redirections ++ entries := by
  induction ids generalizing start other with
  | nil => exact ⟨[], (List.append_nil _).symm, (List.append_nil _).symm⟩
  | cons id ids ih =>
      obtain ⟨entries, hstart, hother⟩ := ih (h.visit id)
      rw [redirections_visit_eq_append, List.append_assoc] at hstart hother
      rw [h.redirectionsIn_eq id] at hstart
      exact ⟨_, hstart, hother⟩

end Pass

/-- The entries that a rule adds to a report when it is the only one. -/
def Rule.entriesAlone (rule : Rule) (cls : Class) : List Redirection :=
  (RuleSet.redirectClass [rule] cls).report.redirections

theorem Pass.redirections_applyRule {rule : Rule} {state : Pass} {cls : Class}
    (h : Class.SeenAlike rule state.result cls) :
    (state.applyRule rule).report.redirections =
      state.report.redirections ++ rule.entriesAlone cls := by
  have hstart : Class.SeenAlike rule state.result (Pass.start cls).result := h
  obtain ⟨entries, hstate, halone⟩ :=
    redirections_foldl_visit (rule.scannedMethods state.result) hstart
  have hentries : rule.entriesAlone cls = entries := by
    rw [hstart.scannedMethods_eq] at halone
    exact halone
  rw [applyRule, hstate, hentries]

/-! ## The reports of rules that are apart -/

namespace RuleSet

variable {rules others : RuleSet}

/-- Rules that are apart add to a report what they would add alone, if they find in the
present class what they would find in the class at the start. -/
theorem Apart.redirections_foldl_applyRule (h : rules.Apart) {cls : Class} {state : Pass}
    {change : MethodId → Instruction → Instruction} (hresult : state.result = cls.mapFirst change)
    (hoffset : ∀ id instruction, (change id instruction).offset = instruction.offset)
    (hmatch : ∀ rule ∈ rules, ∀ id instruction,
      rule.matchedCall? (change id instruction) = rule.matchedCall? instruction) :
    (rules.foldl Pass.applyRule state).report.redirections =
      state.report.redirections ++ rules.flatMap (·.entriesAlone cls) := by
  induction rules generalizing state change with
  | nil => exact (List.append_nil _).symm
  | cons rule rules ih =>
      -- `change` is what the rules before this one did, which none of the rules left can see
      obtain ⟨hhere, hrest⟩ := List.pairwise_cons.1 h
      have halike : Class.SeenAlike rule state.result cls :=
        ⟨cls, change, fun _ instruction => instruction, hresult,
          (Class.mapFirst_eq_self fun _ _ => rfl).symm,
          fun id instruction =>
            ⟨hoffset id instruction, hmatch rule List.mem_cons_self id instruction⟩⟩
      have hnext : (state.applyRule rule).result = cls.mapFirst fun id instruction =>
          if rule.TakesPart state.result id then rule.step (change id instruction)
          else change id instruction := by
        rw [Pass.result_applyRule]
        conv_lhs => rw [hresult]
        rw [Class.mapFirst_mapFirst, ← hresult]
      rw [List.foldl_cons, ih hrest hnext, Pass.redirections_applyRule halike, List.flatMap_cons,
        List.append_assoc]
      · intro id instruction
        split
        · rw [Rule.offset_step, hoffset]
        · exact hoffset id instruction
      · intro later hlater id instruction
        have hbefore := hmatch later (List.mem_cons_of_mem _ hlater) id instruction
        split
        · rw [(hhere later hlater).symm.matchedCall?_step, hbefore]
        · exact hbefore

theorem Apart.redirections_redirectClass (h : rules.Apart) (cls : Class) :
    (rules.redirectClass cls).report.redirections = rules.flatMap (·.entriesAlone cls) := by
  have hstart : (Pass.start cls).result = cls.mapFirst fun _ instruction => instruction :=
    (Class.mapFirst_eq_self fun _ _ => rfl).symm
  exact h.redirections_foldl_applyRule hstart (fun _ _ => rfl) fun _ _ _ _ => rfl

end RuleSet

/-- Rules that are apart can be put in any order: the class comes out the same, and the
entries of the report and the missing methods only change places. -/
theorem redirectClass_perm {rules others : RuleSet} (h : rules.Apart) (hperm : rules.Perm others)
    (cls : Class) :
    (others.redirectClass cls).result = (rules.redirectClass cls).result ∧
      (others.redirectClass cls).report.redirections.Perm
        (rules.redirectClass cls).report.redirections ∧
      (others.redirectClass cls).report.missing.Perm (rules.redirectClass cls).report.missing := by
  have hothers : others.Apart := hperm.pairwise h Rule.Apart.symm
  refine ⟨?_, ?_, ?_⟩
  · rw [RuleSet.result_redirectClass, RuleSet.result_redirectClass, h.rewriteClass_perm hperm]
  · rw [h.redirections_redirectClass, hothers.redirections_redirectClass]
    exact (hperm.flatMap_right _).symm
  · rw [RuleSet.missing_redirectClass, RuleSet.missing_redirectClass]
    exact (hperm.flatMap_right _).symm

/-- The first rule matches its own result, and both rules look at the method twice.  The two
reports are not the same, but one is a permutation of the other. -/
theorem redirectClass_perm_repeated :
    let hook : Rule :=
      ⟨"hook", .static, "h", "()V", [⟨"A", ["m()V"]⟩], .invokeStatic "S" "h" none⟩
    let check : Rule :=
      ⟨"check", .virtual, "f", "()V", [⟨"A", ["gone()V", "m()V"]⟩], .rename "g" none⟩
    let body (name : String) : Class :=
      ⟨"A", [⟨"m", "()V", syntheticFlag, [⟨0, 0xb8, some ⟨"S", "h", "()V", .static, 0⟩⟩,
        ⟨3, 0xb6, some ⟨"B", name, "()V", .virtual, 3⟩⟩]⟩], 0⟩
    let entries (rules : RuleSet) := (rules.redirectClass (body "f")).report.redirections
    RuleSet.Apart [hook, check] ∧ [hook, check].Perm [check, hook] ∧
      (RuleSet.redirectClass [check, hook] (body "f")).result = body "g" ∧
      (entries [hook, check]).length = 3 ∧ entries [check, hook] ≠ entries [hook, check] ∧
      (entries [check, hook]).Perm (entries [hook, check]) := by
  intro hook check body entries
  have hapart : RuleSet.Apart [hook, check] := by
    refine List.pairwise_pair.2 ⟨by decide, fun opcode call _ => ?_, fun opcode call _ => ?_⟩
    · -- the second rule builds calls of another name
      simp [hook, check, Rule.matchesCall, Redirect.build]
    · -- the first rule builds static calls, and the second one matches virtual ones
      rfl
  have hperm : [hook, check].Perm [check, hook] := List.Perm.swap check hook []
  obtain ⟨hresult, hentries, -⟩ := redirectClass_perm hapart hperm (body "f")
  refine ⟨hapart, hperm, ?_, by decide, by decide, hentries⟩
  rw [hresult]
  decide

end CallRedirect
