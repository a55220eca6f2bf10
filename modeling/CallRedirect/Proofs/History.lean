import CallRedirect.Proofs.Lifting
import CallRedirect.Proofs.Rewriting

/-!
# Histories of a class

After it was lifted, a class goes through operations in any order: all rules of
a set look at it, or a call is put in the place of one instruction.  Opcode,
call and offsets of an instruction are stored independently, and nothing in the
types keeps them together.  This module says what holds in every state that a
class goes through.

* `Class.SameFrame`: names, flags and offsets, and the number and order of
  methods and instructions, are those of the first state.
* `Class.Coherent`: opcode, call and offset of every instruction agree.  A
  lifted class is coherent, and no operation changes that, whatever the rules
  and the calls are.
* `Class.PlainKept`: what carries no call is left alone as long as only rules
  look at the class.  A call may be put in the place of any instruction, so the
  other operation does not have this property.
-/

namespace CallRedirect

/-! ## Operations and the states they lead to -/

/-- One thing that is done to a class: a rule set looks at it, or `call` is put in
the place of the instruction at `index` of the method at position `method`. -/
inductive Operation
  | redirect (rules : RuleSet)
  | replaceCall (method index : Nat) (call : CallSite)

/-- The class after an operation. -/
def Operation.apply (cls : Class) : Operation → Class
  | redirect rules => (rules.redirectClass cls).result
  | replaceCall method index call => cls.modifyMethod method (·.replaceCall index call)

/-- The states that a class goes through in a history, from the first one on. -/
def Class.states (cls : Class) : List Operation → List Class
  | [] => [cls]
  | operation :: later => cls :: (operation.apply cls).states later

/-- What holds of the first state and is kept by every operation of a history holds
of all states. -/
theorem Class.forall_states {good : Class → Prop} {history : List Operation} {cls : Class}
    (hstart : good cls)
    (hstep : ∀ operation ∈ history, ∀ state, good state → good (operation.apply state)) :
    ∀ state ∈ cls.states history, good state := by
  induction history generalizing cls with
  | nil =>
      intro state hstate
      rw [List.mem_singleton.1 hstate]
      exact hstart
  | cons operation later ih =>
      obtain ⟨hhere, hlater⟩ := List.forall_mem_cons.1 hstep
      intro state hstate
      rcases List.mem_cons.1 hstate with rfl | hstate
      · exact hstart
      · exact ih (hhere cls hstart) hlater state hstate

/-! ## The frame of a class -/

/-- What no operation changes in a method: its identifier, its flags, and how many
instructions it has and where they stand. -/
def Method.frame (method : Method) : MethodId × UInt16 × List UInt32 :=
  (method.id, method.flags, method.code.map Instruction.offset)

theorem Method.frame_mapCode (method : Method) {change : Instruction → Instruction}
    (hchange : ∀ instruction, (change instruction).offset = instruction.offset) :
    (method.mapCode change).frame = method.frame := by
  have hoffsets : (method.code.map change).map Instruction.offset =
      method.code.map Instruction.offset := by
    rw [List.map_map]
    exact List.map_congr_left fun instruction _ => hchange instruction
  show (method.id, method.flags, (method.code.map change).map Instruction.offset) = method.frame
  rw [hoffsets]
  rfl

/-- What is seen of the items of a list stays if the change of an item does not show. -/
theorem map_modify_of_eq {α β : Type} (view : α → β) {change : α → α}
    (hview : ∀ item, view (change item) = view item) (items : List α) (index : Nat) :
    (items.modify index change).map view = items.map view := by
  apply List.ext_getElem?
  intro position
  rw [List.getElem?_map, List.getElem?_map, List.getElem?_modify]
  cases items[position]? with
  | none => rfl
  | some item => by_cases hhere : index = position <;> simp [hhere, hview]

theorem Method.frame_replaceCall (method : Method) (index : Nat) (call : CallSite) :
    (method.replaceCall index call).frame = method.frame := by
  have hoffsets := map_modify_of_eq Instruction.offset
    (fun instruction => Instruction.offset_withCall instruction call) method.code index
  show (method.id, method.flags, (method.code.modify index (·.withCall call)).map _) = method.frame
  rw [hoffsets]
  rfl

/-- Two classes with the same name, at the same artifact, with the same methods up to
the opcodes and calls of their instructions. -/
structure Class.SameFrame (cls other : Class) : Prop where
  name : cls.name = other.name
  artifact : cls.artifact = other.artifact
  methods : cls.methods.map Method.frame = other.methods.map Method.frame

namespace Class.SameFrame

variable {cls other third : Class}

theorem refl (cls : Class) : cls.SameFrame cls := ⟨rfl, rfl, rfl⟩

theorem trans (h : cls.SameFrame other) (hnext : other.SameFrame third) : cls.SameFrame third :=
  ⟨h.name.trans hnext.name, h.artifact.trans hnext.artifact, h.methods.trans hnext.methods⟩

end Class.SameFrame

/-! ## What the rules leave of an instruction -/

/-- What every step of a rule keeps is kept by the rules together. -/
theorem RuleSet.rewriteInstruction_keeps (rules : RuleSet) (cls : Class) (id : MethodId)
    (good : Instruction → Prop)
    (hstep : ∀ (rule : Rule) instruction, good instruction → good (rule.step instruction))
    {instruction : Instruction} (h : good instruction) :
    good (rules.rewriteInstruction cls id instruction) := by
  unfold rewriteInstruction
  induction rules.filter (fun rule => rule.TakesPart cls id) generalizing instruction with
  | nil => exact h
  | cons rule rest ih => exact ih (hstep rule instruction h)

theorem RuleSet.offset_rewriteInstruction (rules : RuleSet) (cls : Class) (id : MethodId)
    (instruction : Instruction) :
    (rules.rewriteInstruction cls id instruction).offset = instruction.offset :=
  rules.rewriteInstruction_keeps cls id (·.offset = instruction.offset)
    (fun rule before hbefore => (rule.offset_step before).trans hbefore) rfl

theorem Rule.step_of_call_eq_none (rule : Rule) {instruction : Instruction}
    (hplain : instruction.call = none) : rule.step instruction = instruction := by
  rw [Rule.step, hplain]

theorem RuleSet.rewriteInstruction_of_call_eq_none (rules : RuleSet) (cls : Class)
    (id : MethodId) {instruction : Instruction} (hplain : instruction.call = none) :
    rules.rewriteInstruction cls id instruction = instruction := by
  refine rules.rewriteInstruction_keeps cls id (· = instruction) ?_ rfl
  rintro rule _ rfl
  exact rule.step_of_call_eq_none hplain

theorem Instruction.coherent_withCall (instruction : Instruction) (call : CallSite) :
    (instruction.withCall call).Coherent where
  invokes := by simp [withCall, call.kind.opcode_mem_invocationOpcodes]
  kind := by
    intro placed hplaced
    cases hplaced
    exact CallKind.ofOpcode?_opcode call.kind
  offset := by
    intro placed hplaced
    cases hplaced
    rfl

/-- A step of a rule keeps an instruction coherent: what it builds is coherent even where
the instruction that it matched was not. -/
theorem Rule.coherent_step (rule : Rule) {instruction : Instruction}
    (h : instruction.Coherent) : (rule.step instruction).Coherent := by
  cases hmatch : rule.matchedCall? instruction with
  | none => rwa [step_of_matchedCall?_none hmatch]
  | some call =>
      rw [step_of_matchedCall? hmatch]
      exact instruction.coherent_withCall _

/-! ## What an operation keeps -/

/-- The opcodes, calls and offsets of all instructions of a class agree. -/
def Class.Coherent (cls : Class) : Prop :=
  ∀ method ∈ cls.methods, ∀ instruction ∈ method.code, instruction.Coherent

/-- Every instruction without a call stands in `later` where it stands in `cls`. -/
def Class.PlainKept (cls later : Class) : Prop :=
  ∀ (index position : Nat) (method : Method) (instruction : Instruction),
    cls.methods[index]? = some method → method.code[position]? = some instruction →
    instruction.call = none →
    ∃ kept, later.methods[index]? = some kept ∧ kept.code[position]? = some instruction

theorem coherent_of_liftClass {bytes : Bytes} {artifact : Int} {cls : Class}
    (h : liftClass bytes artifact = .ok cls) : cls.Coherent := by
  intro method hmethod
  obtain ⟨pool, code, -, hwalk⟩ := exists_walk_of_liftClass h method hmethod
  exact hwalk.coherent

namespace Class

variable {cls : Class}

theorem sameFrame_mapFirst (cls : Class) {change : MethodId → Instruction → Instruction}
    (hchange : ∀ id instruction, (change id instruction).offset = instruction.offset) :
    (cls.mapFirst change).SameFrame cls :=
  ⟨rfl, rfl, cls.map_mapFirst Method.frame fun method => method.frame_mapCode (hchange method.id)⟩

theorem Coherent.mapFirst (h : cls.Coherent) {change : MethodId → Instruction → Instruction}
    (hchange : ∀ id instruction, instruction.Coherent → (change id instruction).Coherent) :
    (cls.mapFirst change).Coherent :=
  forall_code_mapFirst h hchange

theorem plainKept_mapFirst (cls : Class) {change : MethodId → Instruction → Instruction}
    (hchange : ∀ id (instruction : Instruction), instruction.call = none →
      change id instruction = instruction) :
    cls.PlainKept (cls.mapFirst change) := by
  intro index position method instruction hmethod hat hplain
  rw [getElem?_mapFirst, hmethod, Option.map_some]
  refine ⟨_, rfl, ?_⟩
  split
  · exact hat
  · show (method.code.map (change method.id))[position]? = some instruction
    rw [List.getElem?_map, hat, Option.map_some, hchange method.id instruction hplain]

/-- Putting a call into a coherent class leaves it coherent, at any position. -/
theorem Coherent.replaceCall (h : cls.Coherent) (method index : Nat) (call : CallSite) :
    (cls.modifyMethod method (·.replaceCall index call)).Coherent := by
  intro changed hchanged instruction hinstruction
  obtain ⟨position, hposition⟩ := List.mem_iff_getElem?.1 hchanged
  simp only [modifyMethod, List.getElem?_modify] at hposition
  obtain ⟨before, hbefore, hresult⟩ := Option.map_eq_some_iff.1 hposition
  have hcode := h before (List.mem_of_getElem? hbefore)
  split at hresult
  · -- the method that is changed: each instruction is an old one or the new call
    subst hresult
    obtain ⟨place, hplace⟩ := List.mem_iff_getElem?.1 hinstruction
    simp only [Method.replaceCall, List.getElem?_modify] at hplace
    obtain ⟨old, hold, hnew⟩ := Option.map_eq_some_iff.1 hplace
    split at hnew
    · exact hnew ▸ old.coherent_withCall call
    · exact hnew ▸ hcode old (List.mem_of_getElem? hold)
  · exact hcode instruction (hresult ▸ hinstruction)

theorem PlainKept.trans {middle later : Class} (h : cls.PlainKept middle)
    (hnext : middle.PlainKept later) : cls.PlainKept later := by
  intro index position method instruction hmethod hat hplain
  obtain ⟨kept, hkept, hstill⟩ := h index position method instruction hmethod hat hplain
  exact hnext index position kept instruction hkept hstill hplain

theorem PlainKept.refl (cls : Class) : cls.PlainKept cls :=
  fun _ _ method _ hmethod hat _ => ⟨method, hmethod, hat⟩

end Class

namespace Operation

theorem sameFrame_apply (operation : Operation) (cls : Class) :
    (operation.apply cls).SameFrame cls := by
  cases operation with
  | redirect rules =>
      show (rules.redirectClass cls).result.SameFrame cls
      rw [RuleSet.result_redirectClass]
      exact cls.sameFrame_mapFirst (rules.offset_rewriteInstruction cls)
  | replaceCall method index call =>
      have hmethods := map_modify_of_eq Method.frame
        (fun before => before.frame_replaceCall index call) cls.methods method
      exact ⟨rfl, rfl, hmethods⟩

theorem coherent_apply (operation : Operation) {cls : Class} (h : cls.Coherent) :
    (operation.apply cls).Coherent := by
  cases operation with
  | redirect rules =>
      show (rules.redirectClass cls).result.Coherent
      rw [RuleSet.result_redirectClass]
      exact h.mapFirst fun id instruction =>
        rules.rewriteInstruction_keeps cls id Instruction.Coherent fun rule _ => rule.coherent_step
  | replaceCall method index call => exact h.replaceCall method index call

theorem plainKept_redirect (rules : RuleSet) (cls : Class) :
    cls.PlainKept ((redirect rules).apply cls) := by
  show cls.PlainKept (rules.redirectClass cls).result
  rw [RuleSet.result_redirectClass]
  exact cls.plainKept_mapFirst fun id instruction hplain =>
    rules.rewriteInstruction_of_call_eq_none cls id hplain

end Operation

/-! ## Every state of a history -/

/-- In every state of every history of a lifted class the frame is that of the lifted
class, and opcodes, calls and offsets agree; if only rule sets look at the class, the
instructions without a call are left alone as well. -/
theorem liftClass_states_coherent {bytes : Bytes} {artifact : Int} {cls : Class}
    (h : liftClass bytes artifact = .ok cls) (history : List Operation) :
    (∀ state ∈ cls.states history, state.SameFrame cls ∧ state.Coherent) ∧
      ((∀ operation ∈ history, ∃ rules, operation = .redirect rules) →
        ∀ state ∈ cls.states history, cls.PlainKept state) := by
  constructor
  · have hstart : cls.SameFrame cls ∧ cls.Coherent :=
      ⟨Class.SameFrame.refl cls, coherent_of_liftClass h⟩
    refine Class.forall_states hstart fun operation _ state hstate => ?_
    obtain ⟨hframe, hcoherent⟩ := hstate
    exact ⟨(operation.sameFrame_apply state).trans hframe, operation.coherent_apply hcoherent⟩
  · intro honly
    refine Class.forall_states (Class.PlainKept.refl cls) fun operation hmem state hkept => ?_
    obtain ⟨rules, rfl⟩ := honly operation hmem
    exact hkept.trans (Operation.plainKept_redirect rules state)

/-- A class file whose only method loads a variable, calls itself and returns. -/
def recursiveClass : Bytes :=
  [0xca, 0xfe, 0xba, 0xbe, 0, 0, 0, 0x34, 0, 8, 7, 0, 2, 1, 0, 1, 0x41, 1, 0, 1, 0x6d,
    1, 0, 3, 0x28, 0x29, 0x56, 1, 0, 4, 0x43, 0x6f, 0x64, 0x65, 10, 0, 1, 0, 7, 12, 0, 3, 0, 4,
    0, 1, 0, 1, 0, 0, 0, 0, 0, 0, 0, 1, 0, 1, 0, 3, 0, 4, 0, 1, 0, 5, 0, 0, 0, 17, 0, 1, 0, 1,
    0, 0, 0, 5, 0x2a, 0xb6, 0, 6, 0xb1, 0, 0, 0, 0, 0, 0]

/-- A rule turns the call into a static one, and then another call takes the place of the
return instruction, whose offset it gets. -/
theorem states_recursiveClass :
    let rules : RuleSet :=
      [⟨"r", .virtual, "m", "()V", [⟨"A", ["m()V"]⟩], .invokeStatic "S" "h" none⟩]
    let body (second third : Instruction) : Class :=
      ⟨"A", [⟨"m", "()V", 1, [⟨0, 0x2a, none⟩, second, third]⟩], 0⟩
    let static : Instruction := ⟨1, 0xb8, some ⟨"S", "h", "(LA;)V", .static, 1⟩⟩
    let lifted := body ⟨1, 0xb6, some ⟨"A", "m", "()V", .virtual, 1⟩⟩ ⟨4, 0xb1, none⟩
    let redirected := body static ⟨4, 0xb1, none⟩
    let last := body static ⟨4, 0xb7, some ⟨"B", "g", "()V", .special, 4⟩⟩
    let history : List Operation :=
      [.redirect rules, .replaceCall 0 2 ⟨"B", "g", "()V", .special, 9⟩]
    liftClass recursiveClass 0 = .ok lifted ∧
      lifted.states history = [lifted, redirected, last] ∧
      (last.SameFrame lifted ∧ last.Coherent) ∧ lifted.PlainKept redirected := by
  intro rules body static lifted redirected last history
  have hlift : liftClass recursiveClass 0 = .ok lifted := by decide +kernel
  have hall : lifted.states history = [lifted, redirected, last] := by decide +kernel
  have hrules : lifted.states [.redirect rules] = [lifted, redirected] := by decide +kernel
  have honly : ∀ operation ∈ [Operation.redirect rules],
      ∃ rules, operation = .redirect rules := by
    intro operation hmem
    exact ⟨rules, List.mem_singleton.1 hmem⟩
  refine ⟨hlift, hall, ?_, ?_⟩
  · exact (liftClass_states_coherent hlift history).1 last (by rw [hall]; simp)
  · exact (liftClass_states_coherent hlift [.redirect rules]).2 honly redirected
      (by rw [hrules]; simp)

end CallRedirect
