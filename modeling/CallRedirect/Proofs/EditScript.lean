import CallRedirect.Proofs.Lifting
import CallRedirect.Proofs.Report

/-!
# The report as an edit script

Every entry of the report says which call of which method gave way to which
other call.  Read in order, the entries are a script: an entry selects the first
method with its identifier and in it the instruction at the offset of the
matched call, asks that exactly this call stands there and that a rule with the
entry's name matches it, and puts the replacement in its place.

* `Redirection.edit?` carries out one entry and fails if the entry does not fit.
* `RuleSet.replay?` carries out a script.

On a well-placed class the script runs to its end and gives the redirected class
(`replay?_redirections`).  The invariant of the passes is `Pass.Replays`: the
entries so far turn the class that the pass started from into its present state.
Without well-placed offsets an entry may select a wrong instruction.
-/

namespace CallRedirect

/-! ## Carrying out a script -/

namespace Redirection

/-- Whether an instruction makes the matched call of an entry, and a rule with
the entry's name matches it there. -/
def Fits (rules : RuleSet) (entry : Redirection) (instruction : Instruction) : Prop :=
  instruction.call = some entry.matched ∧
    ∃ rule ∈ rules, rule.name = entry.rule ∧
      rule.matchesCall instruction.opcode entry.matched = true

instance (rules : RuleSet) (entry : Redirection) (instruction : Instruction) :
    Decidable (entry.Fits rules instruction) :=
  inferInstanceAs (Decidable (instruction.call = some entry.matched ∧
    ∃ rule ∈ rules, rule.name = entry.rule ∧
      rule.matchesCall instruction.opcode entry.matched = true))

/-- Put the replacement at the first instruction with the offset of the matched
call; none if there is no such instruction or the entry does not fit it. -/
def editCode? (rules : RuleSet) (entry : Redirection) :
    List Instruction → Option (List Instruction)
  | [] => none
  | instruction :: rest =>
      if instruction.offset = entry.matched.offset then
        if entry.Fits rules instruction then
          some (⟨instruction.offset, entry.replacement.kind.opcode, some entry.replacement⟩ ::
            rest)
        else none
      else (entry.editCode? rules rest).map (instruction :: ·)

/-- Carry out an entry in the first method with its identifier. -/
def edit? (rules : RuleSet) (cls : Class) (entry : Redirection) : Option Class := do
  let (index, method) ← cls.method? entry.id
  let code ← entry.editCode? rules method.code
  return { cls with methods := cls.methods.set index { method with code := code } }

end Redirection

/-- Carry out the entries of a script in order. -/
def RuleSet.replay? (rules : RuleSet) (cls : Class) (script : List Redirection) : Option Class :=
  script.foldlM (Redirection.edit? rules) cls

/-! ## The entries of one look at a method, carried out -/

theorem Redirection.editCode?_append {rules : RuleSet} {entry : Redirection}
    {done : List Instruction} (hdone : ∀ instruction ∈ done,
      instruction.offset ≠ entry.matched.offset) (code : List Instruction) :
    entry.editCode? rules (done ++ code) = (entry.editCode? rules code).map (done ++ ·) := by
  induction done with
  | nil => simp
  | cons instruction done ih =>
      obtain ⟨hhere, hrest⟩ := List.forall_mem_cons.1 hdone
      simp [editCode?, hhere, ih hrest, Function.comp_def]

/-- The entry of a matching call puts there what the rule's step puts there. -/
theorem Rule.editCode?_redirectionOf {rules : RuleSet} {rule : Rule} (hrule : rule ∈ rules)
    (method : Method) {instruction : Instruction} {call : CallSite}
    (hmatch : rule.matchedCall? instruction = some call)
    (hoffset : call.offset = instruction.offset) (rest : List Instruction) :
    (rule.redirectionOf method call).editCode? rules (instruction :: rest) =
      some (rule.step instruction :: rest) := by
  obtain ⟨hcall, hmatches⟩ := matchedCall?_eq_some_iff.1 hmatch
  have hfits : (rule.redirectionOf method call).Fits rules instruction :=
    ⟨hcall, rule, hrule, rfl, hmatches⟩
  have hselects : instruction.offset = (rule.redirectionOf method call).matched.offset :=
    hoffset.symm
  have hbuilt : instruction.withCall (rule.redirect.build call) =
      ⟨instruction.offset, (rule.redirect.build call).kind.opcode,
        some (rule.redirect.build call)⟩ := by
    rw [Instruction.withCall, ← hoffset]
    cases rule.redirect <;> rfl
  rw [Redirection.editCode?, if_pos hselects, if_pos hfits, step_of_matchedCall? hmatch, hbuilt]
  rfl

/-- The entries of one look at a method turn its code into the stepped code. -/
theorem Rule.foldlM_editCode? {rules : RuleSet} {rule : Rule} (hrule : rule ∈ rules)
    (method : Method) (done rest : List Instruction)
    (hdistinct : ((done ++ rest).map Instruction.offset).Nodup)
    (haligned : ∀ instruction ∈ rest, ∀ call ∈ instruction.call,
      call.offset = instruction.offset) :
    ((rest.filterMap rule.matchedCall?).map (rule.redirectionOf method)).foldlM
        (fun code entry => entry.editCode? rules code) (done ++ rest) =
      some (done ++ rest.map rule.step) := by
  induction rest generalizing done with
  | nil => rfl
  | cons instruction rest ih =>
      obtain ⟨hhere, hrest⟩ := List.forall_mem_cons.1 haligned
      have hnext : ((done ++ [rule.step instruction] ++ rest).map Instruction.offset).Nodup := by
        simpa using hdistinct
      have hstep := ih (done ++ [rule.step instruction]) hnext hrest
      cases hmatch : rule.matchedCall? instruction with
      | none =>
          rw [step_of_matchedCall?_none hmatch] at hstep
          simpa [hmatch, step_of_matchedCall?_none hmatch] using hstep
      | some call =>
          have hoffset := hhere call (matchedCall?_eq_some_iff.1 hmatch).1
          -- The offset is met at this instruction and at none in front of it.
          have hdone : ∀ earlier ∈ done,
              earlier.offset ≠ (rule.redirectionOf method call).matched.offset := by
            intro earlier hearlier hsame
            rw [List.map_append, List.nodup_append] at hdistinct
            exact hdistinct.2.2 _ (List.mem_map_of_mem hearlier) _ List.mem_cons_self
              (hsame.trans hoffset)
          have hedit : (rule.redirectionOf method call).editCode? rules
              (done ++ instruction :: rest) =
                some (done ++ [rule.step instruction] ++ rest) := by
            rw [Redirection.editCode?_append hdone,
              editCode?_redirectionOf hrule method hmatch hoffset]
            simp
          simp only [List.filterMap_cons, hmatch, List.map_cons, List.foldlM_cons, hedit]
          simpa using hstep

/-! ## The entries of one visit of a class -/

namespace Class

/-- The class with the code of the method at a position replaced. -/
def setCode (cls : Class) (index : Nat) (method : Method) (code : List Instruction) : Class :=
  { cls with methods := cls.methods.set index { method with code := code } }

theorem idsBefore_setCode {cls : Class} {index : Nat} {method : Method}
    (hmethod : cls.methods[index]? = some method) (code : List Instruction) (other : Nat) :
    (cls.setCode index method code).idsBefore other = cls.idsBefore other := by
  have hids : (cls.setCode index method code).methods.map Method.id =
      cls.methods.map Method.id := by
    obtain ⟨h, rfl⟩ := List.getElem?_eq_some_iff.1 hmethod
    apply List.ext_getElem (by simp [setCode])
    intro position _ _
    by_cases hhere : index = position
    · subst hhere
      simp [setCode, Method.id]
    · simp [setCode, hhere]
  rw [idsBefore, idsBefore, List.map_take, List.map_take, hids]

/-- The same look-up finds the method again after its code was replaced. -/
theorem method?_setCode {cls : Class} {id : MethodId} {index : Nat} {method : Method}
    (hfind : cls.method? id = some (index, method)) (code : List Instruction) :
    (cls.setCode index method code).method? id = some (index, { method with code := code }) := by
  obtain ⟨hmethod, hid, hfirst⟩ := method?_eq_some_iff.1 hfind
  obtain ⟨h, -⟩ := List.getElem?_eq_some_iff.1 hmethod
  refine method?_eq_some_iff.2 ⟨by simp [setCode, h], hid, ?_⟩
  rw [idsBefore_setCode hmethod]
  exact hfirst

theorem setCode_setCode (cls : Class) (index : Nat) (method : Method)
    (first second : List Instruction) :
    (cls.setCode index method first).setCode index { method with code := first } second =
      cls.setCode index method second := by
  simp [setCode]

theorem setCode_self {cls : Class} {index : Nat} {method : Method}
    (hmethod : cls.methods[index]? = some method) :
    cls.setCode index method method.code = cls := by
  obtain ⟨h, rfl⟩ := List.getElem?_eq_some_iff.1 hmethod
  show { cls with methods := cls.methods.set index cls.methods[index] } = cls
  rw [List.set_getElem_self]

theorem modifyMethod_mapCode_eq_setCode {cls : Class} {index : Nat} {method : Method}
    (hmethod : cls.methods[index]? = some method) (change : Instruction → Instruction) :
    cls.modifyMethod index (·.mapCode change) =
      cls.setCode index method (method.code.map change) := by
  obtain ⟨h, rfl⟩ := List.getElem?_eq_some_iff.1 hmethod
  simp only [modifyMethod, setCode, Method.mapCode]
  congr 1
  apply List.ext_getElem?
  intro other
  by_cases hhere : index = other
  · subst hhere
    simp [h]
  · simp [hhere]

end Class

/-- A script about one method edits the code of this method step by step. -/
theorem RuleSet.replay?_of_same_method (rules : RuleSet) {id : MethodId} {index : Nat}
    (script : List Redirection) {cls : Class} {method : Method} {code : List Instruction}
    (hscript : ∀ entry ∈ script, entry.id = id)
    (hfind : cls.method? id = some (index, method))
    (hcode : script.foldlM (fun code entry => entry.editCode? rules code) method.code =
      some code) :
    rules.replay? cls script = some (cls.setCode index method code) := by
  induction script generalizing cls method with
  | nil =>
      cases hcode
      have hmethod := (Class.method?_eq_some_iff.1 hfind).1
      exact congrArg some (Class.setCode_self hmethod).symm
  | cons entry script ih =>
      obtain ⟨hentry, hrest⟩ := List.forall_mem_cons.1 hscript
      obtain ⟨middle, hmiddle, hcode⟩ := Option.bind_eq_some_iff.1 hcode
      have hedit : entry.edit? rules cls = some (cls.setCode index method middle) := by
        simp [Redirection.edit?, hentry, hfind, hmiddle, Class.setCode]
      have hstep := ih hrest (Class.method?_setCode hfind middle) hcode
      rw [Class.setCode_setCode] at hstep
      simpa [replay?, hedit] using hstep

/-! ## Well-placed classes stay well placed -/

theorem Rule.offset_call_step (rule : Rule) {instruction : Instruction}
    (haligned : ∀ call ∈ instruction.call, call.offset = instruction.offset) :
    ∀ call ∈ (rule.step instruction).call, call.offset = instruction.offset := by
  cases hmatch : rule.matchedCall? instruction with
  | none => rwa [step_of_matchedCall?_none hmatch]
  | some call =>
      rw [step_of_matchedCall? hmatch]
      intro built hbuilt
      cases hbuilt
      rfl

theorem Method.WellPlaced.mapCode_step {method : Method} (h : method.WellPlaced) (rule : Rule) :
    (method.mapCode rule.step).WellPlaced where
  distinct := by simpa [mapCode, Function.comp_def] using h.distinct
  aligned := by
    intro instruction hmem
    obtain ⟨before, hbefore, rfl⟩ := List.mem_map.1 hmem
    rw [Rule.offset_step]
    exact rule.offset_call_step (h.aligned before hbefore)

theorem Class.WellPlaced.visit {state : Pass} (h : state.result.WellPlaced) (rule : Rule)
    (id : MethodId) : (Pass.visit rule state id).result.WellPlaced := by
  unfold Pass.visit
  split
  · exact h
  · next index method hfind =>
    obtain ⟨hmethod, -, -⟩ := Class.method?_eq_some_iff.1 hfind
    intro other hother
    simp only [Class.modifyMethod, funext rule.redirectCalls_eq_mapCode] at hother
    obtain ⟨position, hposition⟩ := List.mem_iff_getElem?.1 hother
    rw [List.getElem?_modify] at hposition
    obtain ⟨before, hbefore, hchanged⟩ := Option.map_eq_some_iff.1 hposition
    have hplaced := h before (List.mem_of_getElem? hbefore)
    split at hchanged
    · exact hchanged ▸ hplaced.mapCode_step rule
    · exact hchanged ▸ hplaced

/-! ## The invariant of the passes -/

/-- The entries recorded so far turn the class `cls` into the present one. -/
structure Pass.Replays (rules : RuleSet) (cls : Class) (state : Pass) : Prop where
  placed : state.result.WellPlaced
  script : rules.replay? cls state.report.redirections = some state.result

namespace Pass.Replays

variable {rules : RuleSet} {cls : Class} {state : Pass} {rule : Rule}

theorem start (h : cls.WellPlaced) : Replays rules cls (Pass.start cls) := ⟨h, rfl⟩

theorem visit (hrule : rule ∈ rules) (h : Replays rules cls state) (id : MethodId) :
    Replays rules cls (Pass.visit rule state id) := by
  refine ⟨h.placed.visit rule id, ?_⟩
  unfold Pass.visit
  split
  · exact h.script
  · next index method hfind =>
    obtain ⟨hmethod, hid, -⟩ := Class.method?_eq_some_iff.1 hfind
    have hplaced := h.placed method (List.mem_of_getElem? hmethod)
    have hcode := Rule.foldlM_editCode? hrule method [] method.code hplaced.distinct
      hplaced.aligned
    rw [← Rule.redirectionsIn_eq] at hcode
    have hentries : ∀ entry ∈ rule.redirectionsIn method, entry.id = id := by
      intro entry hentry
      obtain ⟨call, -, rfl⟩ := List.mem_map.1 hentry
      exact hid
    -- the script so far leads to the present class, and the entries of this look go on from it
    have hlook := rules.replay?_of_same_method _ hentries hfind hcode
    show rules.replay? cls (state.report.redirections ++ rule.redirectionsIn method) = _
    rw [RuleSet.replay?, List.foldlM_append]
    have hscript := h.script
    rw [RuleSet.replay?] at hscript hlook
    simp only [hscript, Option.bind_eq_bind, Option.bind_some, hlook,
      funext rule.redirectCalls_eq_mapCode, Class.modifyMethod_mapCode_eq_setCode hmethod]
    rfl

end Pass.Replays

/-! ## What a script leaves alone -/

theorem Redirection.getElem?_editCode? {rules : RuleSet} {entry : Redirection}
    {code edited : List Instruction} (hedit : entry.editCode? rules code = some edited)
    {position : Nat} {instruction : Instruction} (hat : code[position]? = some instruction)
    (hother : entry.matched.offset ≠ instruction.offset) :
    edited[position]? = some instruction := by
  induction code generalizing edited position with
  | nil => cases hedit
  | cons first rest ih =>
      rw [editCode?] at hedit
      split at hedit
      · next hhere =>
        split at hedit
        · cases hedit
          cases position with
          | zero =>
              cases hat
              exact absurd hhere.symm hother
          | succ position => exact hat
        · cases hedit
      · obtain ⟨editedRest, hrest, rfl⟩ := Option.map_eq_some_iff.1 hedit
        cases position with
        | zero => exact hat
        | succ position => exact ih hrest hat

/-- An instruction that no entry of a script selects stays where it is. -/
theorem RuleSet.getElem?_replay? {rules : RuleSet} {script : List Redirection}
    {cls result : Class} (hreplay : rules.replay? cls script = some result) {index position : Nat}
    {method : Method} {instruction : Instruction} (hmethod : cls.methods[index]? = some method)
    (hat : method.code[position]? = some instruction)
    (hother : ∀ entry ∈ script, entry.id = method.id →
      entry.matched.offset ≠ instruction.offset) :
    ∃ left, result.methods[index]? = some left ∧ left.code[position]? = some instruction := by
  induction script generalizing cls method with
  | nil =>
      cases hreplay
      exact ⟨method, hmethod, hat⟩
  | cons entry script ih =>
      obtain ⟨hentry, hrest⟩ := List.forall_mem_cons.1 hother
      obtain ⟨middle, hedit, hreplay⟩ := Option.bind_eq_some_iff.1 hreplay
      simp only [Redirection.edit?, Option.bind_eq_bind, Option.bind_eq_some_iff,
        Option.pure_def, Option.some.injEq] at hedit
      obtain ⟨⟨found, edited⟩, hfind, code, hcode, rfl⟩ := hedit
      obtain ⟨hfound, hid, -⟩ := Class.method?_eq_some_iff.1 hfind
      by_cases hhere : found = index
      · subst hhere
        rw [hmethod, Option.some.injEq] at hfound
        subst hfound
        obtain ⟨h, -⟩ := List.getElem?_eq_some_iff.1 hmethod
        have hedited := Redirection.getElem?_editCode? hcode hat (hentry hid.symm)
        exact ih hreplay (List.getElem?_set_self h) hedited hrest
      · exact ih hreplay (by simp [hhere, hmethod]) hat hrest

/-- The report of a well-placed class is a script that turns the class into the
redirected one, and an instruction that the report does not name is as before.
The class of a class file is well placed. -/
theorem replay?_redirections (rules : RuleSet) :
    (∀ cls : Class, cls.WellPlaced →
      rules.replay? cls (rules.redirectClass cls).report.redirections =
        some (rules.redirectClass cls).result ∧
      ∀ (index : Nat) (method : Method) (position : Nat) (instruction : Instruction),
        cls.methods[index]? = some method → method.code[position]? = some instruction →
        (∀ entry ∈ (rules.redirectClass cls).report.redirections,
          entry.id = method.id → entry.matched.offset ≠ instruction.offset) →
        ∃ left : Method, (rules.redirectClass cls).result.methods[index]? = some left ∧
          left.code[position]? = some instruction) ∧
      ∀ bytes artifact cls, liftClass bytes artifact = .ok cls → cls.WellPlaced := by
  refine ⟨fun cls hplaced => ?_, fun bytes artifact cls hlift => wellPlaced_of_liftClass hlift⟩
  have hrun : Pass.Replays rules cls (rules.redirectClass cls) :=
    Pass.foldl_applyRule_induction (fun _ hrule _ id _ hstate => hstate.visit hrule id)
      (Pass.Replays.start hplaced)
  refine ⟨hrun.script, ?_⟩
  intro index method position instruction hmethod hat hother
  exact RuleSet.getElem?_replay? hrun.script hmethod hat hother

/-- Two rules in turn replace one call: the report links the second entry to the first. -/
theorem replay?_redirections_chain :
    let rules : RuleSet :=
      [⟨"first", .virtual, "f", "()V", [⟨"A", ["m()V"]⟩], .rename "g" none⟩,
        ⟨"second", .virtual, "g", "()V", [⟨"A", ["m()V"]⟩], .invokeStatic "S" "h" none⟩]
    let cls : Class :=
      ⟨"A", [⟨"m", "()V", 0, [⟨3, 0xb6, some ⟨"B", "f", "()V", .virtual, 3⟩⟩]⟩], 0⟩
    cls.WellPlaced ∧
      rules.replay? cls
        [⟨"first", "m", "()V", ⟨"B", "f", "()V", .virtual, 3⟩, ⟨"B", "g", "()V", .virtual, 3⟩⟩,
          ⟨"second", "m", "()V", ⟨"B", "g", "()V", .virtual, 3⟩,
            ⟨"S", "h", "(LB;)V", .static, 3⟩⟩] =
        some ⟨"A", [⟨"m", "()V", 0, [⟨3, 0xb8, some ⟨"S", "h", "(LB;)V", .static, 3⟩⟩]⟩], 0⟩ := by
  intro rules cls
  have hplaced : cls.WellPlaced := by
    intro method hmethod
    obtain rfl := List.mem_singleton.1 hmethod
    exact ⟨by decide, by decide⟩
  exact ⟨hplaced, ((replay?_redirections rules).1 cls hplaced).1⟩

end CallRedirect
