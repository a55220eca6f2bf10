import CallRedirect.Redirection
import Mathlib.Data.List.Forall2

/-!
# Redirecting a class, instruction by instruction

The rules go through a class in nested passes: rule by rule, identifier by
identifier, and in each method over a snapshot of the matching calls.  This
module says what comes out of it at one instruction.

* `Rule.step` is what one rule does to one instruction.  A second step of the
  same rule changes nothing (`step_step`), so it does not matter how often a
  rule looks at a method.
* `Class.mapFirst` changes the instructions of the methods that are the first
  ones with their identifier; the others are never found by a look-up.
* `RuleSet.rewriteClass` folds every instruction of such a method through the
  rules that take part for its identifier, each of them once.

The passes refine this rewrite: `redirectClass_result_eq`.  What they record in
the report and in the log is not looked at here.
-/

namespace CallRedirect

/-! ## Methods and their identifiers -/

namespace Method

/-- The identifier that a method answers to. -/
def id (method : Method) : MethodId := ⟨method.name, method.descriptor⟩

/-- The method with every instruction changed. -/
def mapCode (method : Method) (change : Instruction → Instruction) : Method :=
  { method with code := method.code.map change }

@[simp] theorem id_mapCode (method : Method) (change : Instruction → Instruction) :
    (method.mapCode change).id = method.id := rfl

@[simp] theorem mapCode_mapCode (method : Method) (f g : Instruction → Instruction) :
    (method.mapCode f).mapCode g = method.mapCode (fun instruction => g (f instruction)) := by
  simp [mapCode, Function.comp_def]

@[simp] theorem mapCode_self (method : Method) :
    method.mapCode (fun instruction => instruction) = method := by
  simp [mapCode]

end Method

/-! ## One rule at one instruction -/

namespace Rule

/-- What a rule does to an instruction: a call with the rule's opcode, callee
name and callee descriptor gives way to the call that the rule builds for it,
at the same offset; anything else stays. -/
def step (rule : Rule) (instruction : Instruction) : Instruction :=
  match instruction.call with
  | none => instruction
  | some call =>
      if instruction.opcode = rule.kind.opcode ∧ call.name = rule.method ∧
          call.descriptor = rule.descriptor then
        let built := rule.redirect.build call
        { offset := instruction.offset
          opcode := built.kind.opcode
          call := some { built with offset := instruction.offset } }
      else instruction

theorem matchesCall_iff {rule : Rule} {opcode : UInt8} {call : CallSite} :
    rule.matchesCall opcode call = true ↔
      opcode = rule.kind.opcode ∧ call.name = rule.method ∧ call.descriptor = rule.descriptor := by
  simp only [matchesCall, Bool.and_eq_true, decide_eq_true_eq, and_assoc]

/-- The call that a rule matches at an instruction. -/
def matchedCall? (rule : Rule) (instruction : Instruction) : Option CallSite :=
  instruction.call.filter (rule.matchesCall instruction.opcode)

theorem matchedCall?_eq_some_iff {rule : Rule} {instruction : Instruction} {call : CallSite} :
    rule.matchedCall? instruction = some call ↔
      instruction.call = some call ∧ rule.matchesCall instruction.opcode call = true := by
  simp [matchedCall?, Option.filter_eq_some_iff]

theorem step_of_matchedCall? {rule : Rule} {instruction : Instruction} {call : CallSite}
    (h : rule.matchedCall? instruction = some call) :
    rule.step instruction = instruction.withCall (rule.redirect.build call) := by
  obtain ⟨hcall, hmatch⟩ := matchedCall?_eq_some_iff.1 h
  simp [step, hcall, matchesCall_iff.1 hmatch, Instruction.withCall]

theorem step_of_matchedCall?_none {rule : Rule} {instruction : Instruction}
    (h : rule.matchedCall? instruction = none) : rule.step instruction = instruction := by
  unfold step
  split
  · rfl
  · next call hcall =>
    rw [matchedCall?, hcall, Option.filter_eq_none_iff] at h
    exact if_neg (mt matchesCall_iff.2 (h call rfl))

@[simp] theorem offset_step (rule : Rule) (instruction : Instruction) :
    (rule.step instruction).offset = instruction.offset := by
  unfold step
  split
  · rfl
  · split <;> rfl

/-- A built call is built again as it is, whatever its offset: a static call
keeps its descriptor, and a renamed one has its new name already. -/
theorem build_build (rule : Rule) (call : CallSite) (offset : UInt32) :
    rule.redirect.build { rule.redirect.build call with offset := offset } =
      { rule.redirect.build call with offset := offset } := by
  cases rule.redirect with
  | invokeStatic owner name descriptor => cases descriptor <;> rfl
  | rename name descriptor => cases descriptor <;> rfl

/-- A rule that looks at its own result changes nothing. -/
theorem step_step (rule : Rule) (instruction : Instruction) :
    rule.step (rule.step instruction) = rule.step instruction := by
  cases hfirst : rule.matchedCall? instruction with
  | none => rw [step_of_matchedCall?_none hfirst, step_of_matchedCall?_none hfirst]
  | some call =>
      rw [step_of_matchedCall? hfirst]
      cases hagain : rule.matchedCall? (instruction.withCall (rule.redirect.build call)) with
      | none => rw [step_of_matchedCall?_none hagain]
      | some built =>
          have hbuilt : built =
              { rule.redirect.build call with offset := instruction.offset } := by
            obtain ⟨hcall, -⟩ := matchedCall?_eq_some_iff.1 hagain
            exact (Option.some.inj hcall).symm
          rw [step_of_matchedCall? hagain, hbuilt, build_build]
          rfl

/-! ## One rule at one method -/

/-- The matches in `code`, whose first instruction stands at position `start`. -/
def matchesFrom (rule : Rule) (start : Nat) : List Instruction → List (Nat × CallSite)
  | [] => []
  | instruction :: rest =>
      ((rule.matchedCall? instruction).map (start, ·)).toList ++
        rule.matchesFrom (start + 1) rest

theorem matchesFrom_eq_filterMap (rule : Rule) (start : Nat) (code : List Instruction) :
    rule.matchesFrom start code =
      (code.zipIdx start).filterMap fun (instruction, index) =>
        match instruction.call with
        | some call =>
            if rule.matchesCall instruction.opcode call then some (index, call) else none
        | none => none := by
  induction code generalizing start with
  | nil => rfl
  | cons instruction rest ih =>
      rw [matchesFrom, ih, List.zipIdx_cons, List.filterMap_cons]
      cases hcall : instruction.call with
      | none => simp [matchedCall?, hcall]
      | some call =>
          by_cases hmatch : rule.matchesCall instruction.opcode call = true
          · simp [matchedCall?, hcall, hmatch, Option.filter]
          · simp [matchedCall?, hcall, hmatch, Option.filter]

theorem matchingCalls_eq (rule : Rule) (method : Method) :
    rule.matchingCalls method = rule.matchesFrom 0 method.code :=
  (matchesFrom_eq_filterMap rule 0 method.code).symm

theorem replaceCall_append_cons (method : Method) (done rest : List Instruction)
    (instruction : Instruction) (call : CallSite) :
    ({ method with code := done ++ instruction :: rest } : Method).replaceCall done.length call =
      { method with code := (done ++ [instruction.withCall call]) ++ rest } := by
  have h := List.modifyTailIdx_add (List.modifyHead (·.withCall call)) 0 done
    (instruction :: rest)
  simpa [Method.replaceCall, List.modify] using h

/-- Replacing the matches of a snapshot one by one takes a step at every
instruction behind `done`. -/
theorem foldl_replaceCall (rule : Rule) (method : Method) (done rest : List Instruction) :
    (rule.matchesFrom done.length rest).foldl
        (fun method (index, call) => method.replaceCall index (rule.redirect.build call))
        { method with code := done ++ rest } =
      { method with code := done ++ rest.map rule.step } := by
  induction rest generalizing done with
  | nil => rfl
  | cons instruction rest ih =>
      have hlength (next : Instruction) : done.length + 1 = (done ++ [next]).length := by simp
      cases hmatch : rule.matchedCall? instruction with
      | none =>
          simp only [matchesFrom, hmatch, Option.map_none, Option.toList_none, List.nil_append]
          have hstep := ih (done ++ [instruction])
          rw [← hlength] at hstep
          simpa [step_of_matchedCall?_none hmatch] using hstep
      | some call =>
          simp only [matchesFrom, hmatch, Option.map_some, Option.toList_some,
            List.singleton_append, List.foldl_cons]
          rw [replaceCall_append_cons]
          have hstep := ih (done ++ [instruction.withCall (rule.redirect.build call)])
          rw [← hlength] at hstep
          simpa [step_of_matchedCall? hmatch] using hstep

/-- Redirecting the calls of a method takes a step at every instruction. -/
theorem redirectCalls_eq_mapCode (rule : Rule) (method : Method) :
    rule.redirectCalls method = method.mapCode rule.step := by
  rw [redirectCalls, matchingCalls_eq]
  exact rule.foldl_replaceCall method [] method.code

end Rule

/-! ## Changing the methods that a look-up finds -/

namespace Class

/-- The identifiers of the methods in front of a position. -/
def idsBefore (cls : Class) (index : Nat) : List MethodId :=
  (cls.methods.take index).map Method.id

/-- The class with the instructions of every method changed that is the first
one with its identifier. -/
def mapFirst (cls : Class) (change : MethodId → Instruction → Instruction) : Class :=
  { cls with
    methods := cls.methods.mapIdx fun index method =>
      if method.id ∈ cls.idsBefore index then method else method.mapCode (change method.id) }

@[simp] theorem name_mapFirst (cls : Class) (change : MethodId → Instruction → Instruction) :
    (cls.mapFirst change).name = cls.name := rfl

@[simp] theorem artifact_mapFirst (cls : Class) (change : MethodId → Instruction → Instruction) :
    (cls.mapFirst change).artifact = cls.artifact := rfl

theorem getElem?_mapFirst (cls : Class) (change : MethodId → Instruction → Instruction)
    (index : Nat) :
    (cls.mapFirst change).methods[index]? =
      cls.methods[index]?.map fun method =>
        if method.id ∈ cls.idsBefore index then method
        else method.mapCode (change method.id) := by
  simp [mapFirst]

/-- What is seen of a method stays in the class if the change of a method does not show. -/
theorem map_mapFirst {β : Type} (cls : Class) {change : MethodId → Instruction → Instruction}
    (view : Method → β) (hview : ∀ method, view (method.mapCode (change method.id)) = view method) :
    (cls.mapFirst change).methods.map view = cls.methods.map view := by
  apply List.ext_getElem?
  intro index
  rw [List.getElem?_map, List.getElem?_map, getElem?_mapFirst, Option.map_map]
  congr 1
  funext method
  simp only [Function.comp_apply]
  split
  · rfl
  · exact hview method

/-- Names, descriptors and flags of the methods stay. -/
theorem signatures_mapFirst (cls : Class) (change : MethodId → Instruction → Instruction) :
    (cls.mapFirst change).methods.map (fun method => (method.id, method.flags)) =
      cls.methods.map (fun method => (method.id, method.flags)) :=
  cls.map_mapFirst (fun method => (method.id, method.flags)) fun _ => rfl

theorem syntheticIds_mapFirst (cls : Class) (change : MethodId → Instruction → Instruction) :
    (cls.mapFirst change).syntheticIds = cls.syntheticIds := by
  have hsignatures (other : Class) : other.syntheticIds =
      ((other.methods.map fun method => (method.id, method.flags)).filter
        fun signature => signature.2 &&& syntheticFlag ≠ 0).map Prod.fst := by
    rw [List.filter_map, List.map_map]
    rfl
  rw [hsignatures, hsignatures, signatures_mapFirst]

@[simp] theorem idsBefore_mapFirst (cls : Class)
    (change : MethodId → Instruction → Instruction) (index : Nat) :
    (cls.mapFirst change).idsBefore index = cls.idsBefore index := by
  have h := congrArg (fun list => (list.map Prod.fst).take index)
    (cls.signatures_mapFirst change)
  simpa [idsBefore, List.map_take, Function.comp_def] using h

theorem mapFirst_mapFirst (cls : Class) (f g : MethodId → Instruction → Instruction) :
    (cls.mapFirst f).mapFirst g = cls.mapFirst fun id instruction => g id (f id instruction) := by
  have hmethods : ((cls.mapFirst f).mapFirst g).methods =
      (cls.mapFirst fun id instruction => g id (f id instruction)).methods := by
    apply List.ext_getElem?
    intro index
    rw [getElem?_mapFirst, getElem?_mapFirst, getElem?_mapFirst, Option.map_map]
    congr 1
    funext method
    by_cases hseen : method.id ∈ cls.idsBefore index
    · simp [hseen]
    · simp [hseen]
  exact congrArg (fun methods => { cls with methods := methods }) hmethods

/-- A class stays as it is if the change does not show at any instruction that it gets to. -/
theorem mapFirst_eq_self_of_code {cls : Class} {change : MethodId → Instruction → Instruction}
    (hsame : ∀ (index : Nat) (method : Method), cls.methods[index]? = some method →
      method.id ∉ cls.idsBefore index →
      ∀ instruction ∈ method.code, change method.id instruction = instruction) :
    cls.mapFirst change = cls := by
  have hmethods : (cls.mapFirst change).methods = cls.methods := by
    apply List.ext_getElem?
    intro index
    rw [getElem?_mapFirst]
    cases hmethod : cls.methods[index]? with
    | none => rfl
    | some method =>
        rw [Option.map_some]
        split
        · rfl
        · next hfirst =>
          have hcode : method.code.map (change method.id) = method.code := by
            have hall := List.map_congr_left (hsame index method hmethod hfirst)
            rwa [List.map_id'] at hall
          exact congrArg (fun code => some { method with code := code }) hcode
  exact congrArg (fun methods => { cls with methods := methods }) hmethods

theorem mapFirst_eq_self {cls : Class} {change : MethodId → Instruction → Instruction}
    (hsame : ∀ method ∈ cls.methods, change method.id = fun instruction => instruction) :
    cls.mapFirst change = cls := by
  refine mapFirst_eq_self_of_code fun index method hmethod _ instruction _ => ?_
  rw [hsame method (List.mem_of_getElem? hmethod)]

/-- What holds of all instructions of a class and is kept by a change holds of all of them
after the change. -/
theorem forall_code_mapFirst {cls : Class} {good : Instruction → Prop}
    (hcls : ∀ method ∈ cls.methods, ∀ instruction ∈ method.code, good instruction)
    {change : MethodId → Instruction → Instruction}
    (hchange : ∀ id instruction, good instruction → good (change id instruction)) :
    ∀ method ∈ (cls.mapFirst change).methods, ∀ instruction ∈ method.code, good instruction := by
  intro method hmethod
  obtain ⟨index, hindex⟩ := List.mem_iff_getElem?.1 hmethod
  rw [getElem?_mapFirst] at hindex
  obtain ⟨before, hbefore, rfl⟩ := Option.map_eq_some_iff.1 hindex
  have hcode := hcls before (List.mem_of_getElem? hbefore)
  split
  · exact hcode
  · intro instruction hmem
    obtain ⟨old, hold, rfl⟩ := List.mem_map.1 hmem
    exact hchange before.id old (hcode old hold)

theorem methodIndex?_eq_findIdx? (cls : Class) (id : MethodId) :
    cls.methodIndex? id.name id.descriptor =
      cls.methods.findIdx? (fun method => method.id = id) := by
  cases id
  simp [methodIndex?, Method.id]

theorem not_mem_idsBefore_iff {cls : Class} {id : MethodId} {index : Nat} :
    id ∉ cls.idsBefore index ↔
      ∀ earlier (_ : earlier < cls.methods.length), earlier < index →
        cls.methods[earlier].id ≠ id := by
  simp only [idsBefore, List.mem_map, List.mem_take_iff_getElem, not_exists, not_and]
  constructor
  · intro hnone earlier h hlt
    exact hnone _ ⟨earlier, by omega, rfl⟩
  · rintro hnone method ⟨earlier, h, rfl⟩
    exact hnone earlier (by omega) (by omega)

/-- A look-up finds the first method with an identifier, where it stands. -/
theorem method?_eq_some_iff {cls : Class} {id : MethodId} {index : Nat} {method : Method} :
    cls.method? id = some (index, method) ↔
      cls.methods[index]? = some method ∧ method.id = id ∧ id ∉ cls.idsBefore index := by
  simp only [method?, methodIndex?_eq_findIdx?, Option.bind_eq_bind, Option.bind_eq_some_iff,
    Option.pure_def, Option.some.injEq, Prod.mk.injEq, List.findIdx?_eq_some_iff_getElem,
    decide_eq_true_eq, not_mem_idsBefore_iff]
  constructor
  · rintro ⟨found, ⟨h, hfound, hfirst⟩, other, hother, rfl, rfl⟩
    obtain ⟨-, rfl⟩ := List.getElem?_eq_some_iff.1 hother
    exact ⟨List.getElem?_eq_getElem h, hfound, fun earlier _ hlt => hfirst earlier hlt⟩
  · rintro ⟨hmethod, hfound, hfirst⟩
    obtain ⟨h, rfl⟩ := List.getElem?_eq_some_iff.1 hmethod
    exact ⟨index, ⟨h, hfound, fun earlier hlt => hfirst earlier (by omega) hlt⟩, _, hmethod,
      rfl, rfl⟩

theorem method?_eq_none_iff {cls : Class} {id : MethodId} :
    cls.method? id = none ↔ ∀ method ∈ cls.methods, method.id ≠ id := by
  rw [method?, methodIndex?_eq_findIdx?]
  cases hfind : cls.methods.findIdx? (fun method => decide (method.id = id)) with
  | none =>
      rw [List.findIdx?_eq_none_iff] at hfind
      simpa using hfind
  | some index =>
      obtain ⟨h, hfound, -⟩ := List.findIdx?_eq_some_iff_getElem.1 hfind
      simp only [List.getElem?_eq_getElem h, Option.bind_eq_bind, Option.bind_some,
        Option.pure_def, reduceCtorEq, false_iff]
      intro hnone
      exact hnone _ (List.getElem_mem h) (by simpa using hfound)

/-- Changing the method that a look-up finds is changing the first methods with
its identifier. -/
theorem modifyMethod_eq_mapFirst {cls : Class} {id : MethodId} {index : Nat} {method : Method}
    (hfind : cls.method? id = some (index, method)) (change : Instruction → Instruction) :
    cls.modifyMethod index (·.mapCode change) =
      cls.mapFirst fun found instruction =>
        if found = id then change instruction else instruction := by
  obtain ⟨hmethod, hid, hfirst⟩ := method?_eq_some_iff.1 hfind
  have hmethods : cls.methods.modify index (·.mapCode change) =
      (cls.mapFirst fun found instruction =>
        if found = id then change instruction else instruction).methods := by
    apply List.ext_getElem?
    intro other
    rw [List.getElem?_modify, getElem?_mapFirst]
    by_cases hhere : index = other
    · subst hhere
      simp [hmethod, hid, hfirst]
    · cases hother : cls.methods[other]? with
      | none => rfl
      | some candidate =>
          simp only [hhere, if_false, Option.map_eq_map, Option.map_some, Option.some.injEq]
          by_cases hsame : candidate.id = id
          · by_cases hseen : candidate.id ∈ cls.idsBefore other
            · rw [if_pos hseen]
            · -- Two methods cannot both be the first one with the identifier.
              have hagain := method?_eq_some_iff.2 ⟨hother, hsame, hsame ▸ hseen⟩
              rw [hfind, Option.some.injEq, Prod.mk.injEq] at hagain
              exact absurd hagain.1 hhere
          · simp [hsame]
  exact congrArg (fun methods => { cls with methods := methods }) hmethods

end Class

namespace Rule

/-- Whether a rule looks at the methods of a class that have an identifier: a
target of the rule names the class, and the target declares the identifier or
the class has a synthetic method with it. -/
def TakesPart (rule : Rule) (cls : Class) (id : MethodId) : Prop :=
  ∃ target ∈ rule.targets, target.className = cls.name ∧
    ((∃ text ∈ target.methods, MethodId.parse text = id) ∨
      ∃ method ∈ cls.methods, method.id = id ∧ method.isSynthetic = true)

instance (rule : Rule) (cls : Class) (id : MethodId) : Decidable (rule.TakesPart cls id) :=
  inferInstanceAs (Decidable (∃ target ∈ rule.targets, target.className = cls.name ∧
    ((∃ text ∈ target.methods, MethodId.parse text = id) ∨
      ∃ method ∈ cls.methods, method.id = id ∧ method.isSynthetic = true)))

theorem mem_scannedMethods_iff {rule : Rule} {cls : Class} {id : MethodId} :
    id ∈ rule.scannedMethods cls ↔ rule.TakesPart cls id := by
  simp only [scannedMethods, targetsFor, Class.syntheticIds, TakesPart, List.mem_flatMap,
    List.mem_filter, List.mem_append, List.mem_map, decide_eq_true_eq]
  constructor
  · rintro ⟨target, ⟨htarget, hname⟩, hdeclared | ⟨method, ⟨hmethod, hsynthetic⟩, hid⟩⟩
    · exact ⟨target, htarget, hname, Or.inl hdeclared⟩
    · exact ⟨target, htarget, hname, Or.inr ⟨method, hmethod, hid, hsynthetic⟩⟩
  · rintro ⟨target, htarget, hname, hdeclared | ⟨method, hmethod, hid, hsynthetic⟩⟩
    · exact ⟨target, ⟨htarget, hname⟩, Or.inl hdeclared⟩
    · exact ⟨target, ⟨htarget, hname⟩, Or.inr ⟨method, ⟨hmethod, hsynthetic⟩, hid⟩⟩

/-- Which methods a rule looks at depends on names, descriptors and flags only. -/
theorem scannedMethods_mapFirst (rule : Rule) (cls : Class)
    (change : MethodId → Instruction → Instruction) :
    rule.scannedMethods (cls.mapFirst change) = rule.scannedMethods cls := by
  rw [scannedMethods, scannedMethods, Class.syntheticIds_mapFirst, Class.name_mapFirst]

theorem takesPart_mapFirst_iff {rule : Rule} {cls : Class}
    {change : MethodId → Instruction → Instruction} {id : MethodId} :
    rule.TakesPart (cls.mapFirst change) id ↔ rule.TakesPart cls id := by
  rw [← mem_scannedMethods_iff, ← mem_scannedMethods_iff, scannedMethods_mapFirst]

end Rule

namespace Pass

/-- A visit changes the method that its identifier finds, and no other. -/
theorem result_visit (rule : Rule) (state : Pass) (id : MethodId) :
    (visit rule state id).result =
      state.result.mapFirst fun found instruction =>
        if found = id then rule.step instruction else instruction := by
  unfold visit
  cases hfind : state.result.method? id with
  | none =>
      -- No method has the identifier, so nothing changes on either side.
      have habsent := Class.method?_eq_none_iff.1 hfind
      apply (Class.mapFirst_eq_self _).symm
      intro method hmethod
      funext instruction
      exact if_neg (habsent method hmethod)
  | some found =>
      obtain ⟨index, method⟩ := found
      have hcalls : rule.redirectCalls = fun method => method.mapCode rule.step :=
        funext rule.redirectCalls_eq_mapCode
      simp only [hcalls]
      exact Class.modifyMethod_eq_mapFirst hfind rule.step

/-- After a visit of every identifier in a list each instruction of the methods
with these identifiers has taken one step, however often an identifier stands
in the list. -/
theorem result_foldl_visit (rule : Rule) (ids : List MethodId) (state : Pass) :
    (ids.foldl (visit rule) state).result =
      state.result.mapFirst fun found instruction =>
        if found ∈ ids then rule.step instruction else instruction := by
  induction ids generalizing state with
  | nil => simp [Class.mapFirst_eq_self]
  | cons id ids ih =>
      rw [List.foldl_cons, ih, result_visit, Class.mapFirst_mapFirst]
      congr 1
      funext found instruction
      by_cases hhere : found = id
      · by_cases hlater : found ∈ ids
        · simp [hhere, hhere ▸ hlater, Rule.step_step]
        · simp [hhere, hhere ▸ hlater]
      · simp [hhere]

/-- A rule takes a step in the methods for whose identifier it takes part. -/
theorem result_applyRule (rule : Rule) (state : Pass) :
    (state.applyRule rule).result =
      state.result.mapFirst fun id instruction =>
        if rule.TakesPart state.result id then rule.step instruction else instruction := by
  rw [applyRule, result_foldl_visit]
  simp only [Rule.mem_scannedMethods_iff]

end Pass

namespace RuleSet

/-- What the rules do to an instruction of a method: those that take part for
the method's identifier take one step each, in order. -/
def rewriteInstruction (rules : RuleSet) (cls : Class) (id : MethodId)
    (instruction : Instruction) : Instruction :=
  (rules.filter fun rule => rule.TakesPart cls id).foldl
    (fun instruction rule => rule.step instruction) instruction

/-- The class with every instruction rewritten in the methods that are the first
ones with their identifier. -/
def rewriteClass (rules : RuleSet) (cls : Class) : Class :=
  cls.mapFirst (rules.rewriteInstruction cls)

/-- The passes of the rules over a class come to the instruction-wise rewrite. -/
theorem result_foldl_applyRule (rules : RuleSet) (state : Pass) :
    (rules.foldl Pass.applyRule state).result = rules.rewriteClass state.result := by
  induction rules generalizing state with
  | nil => exact (Class.mapFirst_eq_self fun _ _ => rfl).symm
  | cons rule rules ih =>
      rw [List.foldl_cons, ih, Pass.result_applyRule, rewriteClass, Class.mapFirst_mapFirst]
      congr 1
      funext id instruction
      by_cases htakes : rule.TakesPart state.result id
      · simp [rewriteInstruction, Rule.takesPart_mapFirst_iff, htakes]
      · simp [rewriteInstruction, Rule.takesPart_mapFirst_iff, htakes]

theorem result_redirectClass (rules : RuleSet) (cls : Class) :
    (rules.redirectClass cls).result = rules.rewriteClass cls :=
  rules.result_foldl_applyRule (Pass.start cls)

end RuleSet

/-! ## How the targets are written -/

/-- Two rules that do the same to a call and name the same methods of the same
classes.  Order and repetition of targets and of identifiers may differ, and so
may the names of the rules. -/
structure Rule.SameScope (rule other : Rule) : Prop where
  kind : rule.kind = other.kind
  method : rule.method = other.method
  descriptor : rule.descriptor = other.descriptor
  redirect : rule.redirect = other.redirect
  classes : ∀ className,
    (∃ target ∈ rule.targets, target.className = className) ↔
      ∃ target ∈ other.targets, target.className = className
  methods : ∀ className text,
    (∃ target ∈ rule.targets, target.className = className ∧ text ∈ target.methods) ↔
      ∃ target ∈ other.targets, target.className = className ∧ text ∈ target.methods

namespace Rule.SameScope

variable {rule other : Rule}

theorem step_eq (h : rule.SameScope other) : rule.step = other.step := by
  funext instruction
  simp only [step, h.kind, h.method, h.descriptor, h.redirect]

theorem takesPart_iff (h : rule.SameScope other) (cls : Class) (id : MethodId) :
    rule.TakesPart cls id ↔ other.TakesPart cls id := by
  -- A rule takes part by a declared identifier or by naming the class at all.
  have hsplit (rule : Rule) : rule.TakesPart cls id ↔
      (∃ text, (∃ target ∈ rule.targets, target.className = cls.name ∧ text ∈ target.methods) ∧
        MethodId.parse text = id) ∨
      ((∃ target ∈ rule.targets, target.className = cls.name) ∧
        ∃ method ∈ cls.methods, method.id = id ∧ method.isSynthetic = true) := by
    constructor
    · rintro ⟨target, htarget, hname, ⟨text, htext, hid⟩ | hsynthetic⟩
      · exact Or.inl ⟨text, ⟨target, htarget, hname, htext⟩, hid⟩
      · exact Or.inr ⟨⟨target, htarget, hname⟩, hsynthetic⟩
    · rintro (⟨text, ⟨target, htarget, hname, htext⟩, hid⟩ | ⟨⟨target, htarget, hname⟩, hsynthetic⟩)
      · exact ⟨target, htarget, hname, Or.inl ⟨text, htext, hid⟩⟩
      · exact ⟨target, htarget, hname, Or.inr hsynthetic⟩
  rw [hsplit, hsplit]
  simp only [h.classes, h.methods]

end Rule.SameScope

theorem RuleSet.rewriteClass_congr {rules others : RuleSet}
    (h : List.Forall₂ Rule.SameScope rules others) (cls : Class) :
    others.rewriteClass cls = rules.rewriteClass cls := by
  have hinstruction (id : MethodId) (instruction : Instruction) :
      others.rewriteInstruction cls id instruction =
        rules.rewriteInstruction cls id instruction := by
    induction h generalizing instruction with
    | nil => rfl
    | @cons rule other rules others hscope _ ih =>
        unfold rewriteInstruction at ih ⊢
        by_cases htakes : rule.TakesPart cls id
        · have hother := (hscope.takesPart_iff cls id).1 htakes
          simp [htakes, hother, hscope.step_eq, ih]
        · have hother := mt (hscope.takesPart_iff cls id).2 htakes
          simp [htakes, hother, ih]
  unfold rewriteClass
  congr 1
  funext id instruction
  exact hinstruction id instruction

/-- The nested passes of a rule set come to one rewrite of every instruction:
only in the methods that are the first ones with their identifier, and there
through the rules that take part, in order and once each.  Hence order and
repetition of targets and identifiers make no difference. -/
theorem redirectClass_result_eq (rules : RuleSet) (cls : Class) :
    (rules.redirectClass cls).result = rules.rewriteClass cls ∧
      ∀ others : RuleSet, List.Forall₂ Rule.SameScope rules others →
        (others.redirectClass cls).result = (rules.redirectClass cls).result := by
  have hresult (rules : RuleSet) :
      (rules.redirectClass cls).result = rules.rewriteClass cls :=
    rules.result_foldl_applyRule (Pass.start cls)
  refine ⟨hresult rules, fun others hscopes => ?_⟩
  rw [hresult, hresult, RuleSet.rewriteClass_congr hscopes]

/-- A rule that names a method twice, and a synthetic method besides, rewrites it once. -/
theorem redirectClass_repeated_target :
    let target : ClassTarget := ⟨"A", ["m()V"]⟩
    let rule (targets : List ClassTarget) : Rule :=
      ⟨"r", .virtual, "f", "()V", targets, .rename "g" none⟩
    let cls : Class :=
      ⟨"A", [⟨"m", "()V", 0x1000, [⟨0, 0xb6, some ⟨"B", "f", "()V", .virtual, 0⟩⟩]⟩], 0⟩
    (RuleSet.redirectClass [rule [target, target]] cls).result =
      ⟨"A", [⟨"m", "()V", 0x1000, [⟨0, 0xb6, some ⟨"B", "g", "()V", .virtual, 0⟩⟩]⟩], 0⟩ := by
  intro target rule cls
  have hscope : (rule [target]).SameScope (rule [target, target]) :=
    { kind := rfl, method := rfl, descriptor := rfl, redirect := rfl
      classes := by simp [rule], methods := by simp [rule] }
  obtain ⟨hrewrite, hsame⟩ := redirectClass_result_eq [rule [target]] cls
  rw [hsame [rule [target, target]] (.cons hscope .nil), hrewrite]
  decide

end CallRedirect
