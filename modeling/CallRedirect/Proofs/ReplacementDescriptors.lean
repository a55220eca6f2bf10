import CallRedirect.Proofs.DescriptorText
import CallRedirect.Proofs.LoadedRules
import CallRedirect.Proofs.Report

/-!
# Descriptors of replacements

The descriptor of a replacement was given with the rule and checked when the rule was
loaded, or it is the descriptor of the matched call, which the rule matched because it
is its own, or it is made from that one by putting the receiver in front.

The last of these needs an owner whose type can be written down.  A rule may bring any
text as an owner, but it makes a static call with it, and a static call has no receiver:
so the owner of a call that has one still comes from the class, however many rules have
been at the call (`Rule.receivable_step`).
-/

namespace CallRedirect

/-! ## Calls that have a receiver -/

/-- The calls of a class have the kind of their opcode, and their owners are names of
classes or descriptors of array types. -/
def Class.LegalCalls (cls : Class) : Prop :=
  ∀ method ∈ cls.methods, ∀ instruction ∈ method.code, ∀ call, instruction.call = some call →
    call.kind.opcode = instruction.opcode ∧ ∃ receiver, ReceiverType call.owner receiver

/-- The call of an instruction has the kind of its opcode, and its receiver has a type if
there is a receiver. -/
def Instruction.Receivable (instruction : Instruction) : Prop :=
  ∀ call, instruction.call = some call → call.kind.opcode = instruction.opcode ∧
    (call.kind ≠ .static → ∃ receiver, ReceiverType call.owner receiver)

theorem Class.LegalCalls.receivable {cls : Class} (h : cls.LegalCalls) :
    ∀ method ∈ cls.methods, ∀ instruction ∈ method.code, instruction.Receivable := by
  intro method hmethod instruction hinstruction call hcall
  obtain ⟨hkind, hreceiver⟩ := h method hmethod instruction hinstruction call hcall
  exact ⟨hkind, fun _ => hreceiver⟩

theorem Rule.receivable_step (rule : Rule) {instruction : Instruction}
    (h : instruction.Receivable) : (rule.step instruction).Receivable := by
  cases hmatch : rule.matchedCall? instruction with
  | none => rwa [step_of_matchedCall?_none hmatch]
  | some matched =>
      obtain ⟨hmatched, -⟩ := matchedCall?_eq_some_iff.1 hmatch
      rw [step_of_matchedCall? hmatch]
      intro call hcall
      cases hcall
      refine ⟨rfl, fun hstatic => ?_⟩
      cases hredirect : rule.redirect with
      | invokeStatic owner name descriptor =>
          have hkind : (rule.redirect.build matched).kind = .static := by rw [hredirect]; rfl
          exact absurd hkind hstatic
      | rename name descriptor =>
          have hkind : (rule.redirect.build matched).kind = matched.kind := by rw [hredirect]; rfl
          exact (h matched hmatched).2 (hkind ▸ hstatic)

/-! ## What a rule makes of a call -/

/-- An entry of a report is what a rule does to the matched call. -/
structure Rule.Accounts (rule : Rule) (entry : Redirection) : Prop where
  name : entry.rule = rule.name
  matched : rule.matchesCall entry.matched.kind.opcode entry.matched = true
  replacement : entry.replacement = rule.redirect.build entry.matched

namespace Rule.WellFormed

variable {rule : Rule} {call : CallSite}

/-- A call that a loaded rule matches has a method descriptor, which is the rule's. -/
theorem exists_parse (h : rule.WellFormed) {opcode : UInt8}
    (hmatch : rule.matchesCall opcode call = true) :
    ∃ original, MethodDescriptor.parse call.descriptor = .ok original := by
  obtain ⟨-, -, hdescriptor⟩ := matchesCall_iff.1 hmatch
  rw [hdescriptor]
  exact validateDescriptor_eq_ok_iff.1 h.descriptor

theorem validateDescriptor_build (h : rule.WellFormed) {opcode : UInt8}
    (hmatch : rule.matchesCall opcode call = true)
    (hreceiver : call.kind ≠ .static → ∃ receiver, ReceiverType call.owner receiver) :
    validateDescriptor (rule.redirect.build call).descriptor = .ok () := by
  obtain ⟨original, hparse⟩ := h.exists_parse hmatch
  have hcall : validateDescriptor call.descriptor = .ok () :=
    validateDescriptor_eq_ok_iff.2 ⟨original, hparse⟩
  have hgiven := h.replacement
  -- a descriptor is kept, given by the rule, or derived, and only then the receiver matters
  cases hredirect : rule.redirect with
  | rename name descriptor =>
      cases descriptor with
      | none => exact hcall
      | some descriptor => exact hgiven descriptor (by rw [hredirect]; rfl)
  | invokeStatic owner name descriptor =>
      cases descriptor with
      | some descriptor => exact hgiven descriptor (by rw [hredirect]; rfl)
      | none =>
          show validateDescriptor (staticDescriptor call) = .ok ()
          by_cases hstatic : call.kind = .static
          · rw [staticDescriptor_of_static hstatic]
            exact hcall
          · obtain ⟨receiver, htype⟩ := hreceiver hstatic
            exact validateDescriptor_eq_ok_iff.2
              ⟨_, MethodDescriptor.parse_staticDescriptor hparse hstatic htype⟩

end Rule.WellFormed

/-! ## All entries of a report -/

/-- Every replacement that loaded rules make in a class with legal calls has a method
descriptor, also where a rule is at a call that other rules have been at.  Where the
descriptor is derived it has the return type of the matched call, and its parameters
behind the receiver if there is one. -/
theorem redirectClass_replacement_descriptor {system : FileSystem} {path : String}
    {rules : RuleSet} (hload : (RuleSet.load system path).outcome = .ok rules) {cls : Class}
    (hcls : cls.LegalCalls) {entry : Redirection}
    (hentry : entry ∈ (rules.redirectClass cls).report.redirections) :
    validateDescriptor entry.replacement.descriptor = .ok () ∧
      (∃ rule ∈ rules, rule.Accounts entry) ∧
      ∀ rule ∈ rules, rule.Accounts entry →
        ∀ owner name, rule.redirect = .invokeStatic owner name none →
          ∃ original, MethodDescriptor.parse entry.matched.descriptor = .ok original ∧
            (entry.matched.kind = .static →
              MethodDescriptor.parse entry.replacement.descriptor = .ok original) ∧
            (entry.matched.kind ≠ .static → ∃ receiver,
              ReceiverType entry.matched.owner receiver ∧
                MethodDescriptor.parse entry.replacement.descriptor =
                  .ok (original.withReceiver receiver)) := by
  have hrules := RuleSet.wellFormed_of_load hload
  obtain ⟨rule, hrule, method, instruction, -, hreceivable, hmatch, hmade⟩ :=
    RuleSet.exists_rule_of_mem_redirections hcls.receivable
      (fun rule _ _ => rule.receivable_step) hentry
  obtain ⟨hcall, hmatches⟩ := Rule.matchedCall?_eq_some_iff.1 hmatch
  obtain ⟨hkind, hreceiver⟩ := hreceivable entry.matched hcall
  have hreplacement : entry.replacement = rule.redirect.build entry.matched := by
    rw [hmade]
    rfl
  refine ⟨?_, ⟨rule, hrule, ?_⟩, ?_⟩
  · rw [hreplacement]
    exact (hrules rule hrule).validateDescriptor_build hmatches hreceiver
  · have hname : entry.rule = rule.name := by
      rw [hmade]
      rfl
    exact ⟨hname, hkind ▸ hmatches, hreplacement⟩
  · intro derived hderived haccounts owner name hredirect
    obtain ⟨original, hparse⟩ := (hrules derived hderived).exists_parse haccounts.matched
    have hdescriptor : entry.replacement.descriptor = staticDescriptor entry.matched := by
      rw [haccounts.replacement, hredirect]
      rfl
    refine ⟨original, hparse, fun hstatic => ?_, fun hstatic => ?_⟩
    · rw [hdescriptor, staticDescriptor_of_static hstatic, hparse]
    · obtain ⟨receiver, htype⟩ := hreceiver hstatic
      refine ⟨receiver, htype, ?_⟩
      rw [hdescriptor]
      exact MethodDescriptor.parse_staticDescriptor hparse hstatic htype

/-- The receiver of a call on an array becomes the first parameter. -/
theorem redirectClass_replacement_descriptor_array :
    let text := "\x7b\"rules\":[\x7b\"name\":\"r\",\"kind\":\"virtual\",\"method\":\"clone\"," ++
      "\"descriptor\":\"()V\",\"targets\":[\x7b\"class\":\"A\",\"methods\":[\"m()V\"]\x7d]," ++
      "\"redirect\":\x7b\"invoke_static\":\x7b\"owner\":\"S\",\"name\":\"s\"\x7d\x7d\x7d]\x7d"
    let system : FileSystem := ⟨.directory [("r", .file text.toUTF8.toList)], []⟩
    let rules : RuleSet :=
      [⟨"r", .virtual, "clone", "()V", [⟨"A", ["m()V"]⟩], .invokeStatic "S" "s" none⟩]
    let cls : Class :=
      ⟨"A", [⟨"m", "()V", 0, [⟨0, 0xb6, some ⟨"[[B", "clone", "()V", .virtual, 0⟩⟩]⟩], 0⟩
    let entry : Redirection :=
      ⟨"r", "m", "()V", ⟨"[[B", "clone", "()V", .virtual, 0⟩, ⟨"S", "s", "([[B)V", .static, 0⟩⟩
    (RuleSet.load system "r").outcome = .ok rules ∧ cls.LegalCalls ∧
      entry ∈ (rules.redirectClass cls).report.redirections ∧
      validateDescriptor entry.replacement.descriptor = .ok () := by
  intro text system rules cls entry
  have hload : (RuleSet.load system "r").outcome = .ok rules := by
    have hrules : (RuleSet.load system "r").outcome.toOption = some rules := by decide +kernel
    exact toOption_eq_some_iff.1 hrules
  have hcls : cls.LegalCalls := by
    intro method hmethod instruction hinstruction call hcall
    cases List.mem_singleton.1 hmethod
    cases List.mem_singleton.1 hinstruction
    cases hcall
    have harray : TypeDescriptor.IsArray ⟨2, .base .byte⟩ :=
      ⟨by decide, by decide, BaseType.noConfusion⟩
    exact ⟨rfl, _, .ofArray harray (by decide)⟩
  have hentry : entry ∈ (rules.redirectClass cls).report.redirections := by decide +kernel
  exact ⟨hload, hcls, hentry, (redirectClass_replacement_descriptor hload hcls hentry).1⟩

end CallRedirect
