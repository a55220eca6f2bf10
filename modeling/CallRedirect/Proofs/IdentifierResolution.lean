import CallRedirect.Proofs.Independence
import CallRedirect.Proofs.MissingMethods
import Mathlib.Data.List.TakeWhile

/-!
# Which method a declared identifier finds

A target declares a method by one text, its name with its descriptor behind it.  The text is
cut before its first opening parenthesis, and the two parts are compared with the names and
descriptors of the methods.

* `MethodId.parse_eq_iff`: cutting a text gives the one identifier that has this text and is
  separable, that is, with no parenthesis in its name and a descriptor that begins with one.
* `RuleSet.LooksFor` are the states of a run in which a rule looks for an identifier, and
  `Pass.Scans` says that such a look goes over the method at a given position.

So a declared identifier finds a method if and only if the class has a separable one with that
text (`reported_iff_of_declared`).  It is NOT enough that the name and the descriptor of a method
make up the text: names can hold parentheses, and such a method is reported as missing
(`reported_despite_method`).
-/

namespace CallRedirect

/-! ## Texts and identifiers -/

namespace MethodId

/-- An identifier that its text gives back: its name has no opening parenthesis, and its
descriptor, unless there is none, begins with one. -/
def Separable (id : MethodId) : Prop :=
  '(' ∉ id.name.toList ∧ (id.descriptor = "" ∨ id.descriptor.toList.head? = some '(')

instance : DecidablePred Separable := fun id =>
  inferInstanceAs (Decidable ('(' ∉ id.name.toList ∧
    (id.descriptor = "" ∨ id.descriptor.toList.head? = some '(')))

theorem separable_parse (text : String) : (parse text).Separable := by
  constructor
  · intro hmem
    rw [parse, String.toList_ofList] at hmem
    simpa using List.mem_takeWhile_imp hmem
  · rw [parse]
    cases hrest : text.toList.dropWhile (· ≠ '(') with
    | nil => exact .inl rfl
    | cons first rest =>
        have hfirst := List.head?_dropWhile_not (· ≠ '(') text.toList
        rw [hrest] at hfirst
        right
        rw [String.toList_ofList]
        simpa using hfirst

/-- Cutting a text gives the identifier that has the text and is separable. -/
theorem parse_eq_iff {text : String} {id : MethodId} :
    parse text = id ↔ id.text = text ∧ id.Separable := by
  constructor
  · rintro rfl
    exact ⟨text_parse text, separable_parse text⟩
  · rintro ⟨rfl, hname, hdescriptor⟩
    have hall : ∀ letter ∈ id.name.toList, decide (letter ≠ '(') = true := by
      intro letter hletter
      rw [decide_eq_true_eq]
      rintro rfl
      exact hname hletter
    -- the walk over the letters stops right in front of the descriptor
    have hstop : id.descriptor.toList.takeWhile (· ≠ '(') = [] ∧
        id.descriptor.toList.dropWhile (· ≠ '(') = id.descriptor.toList := by
      rcases hdescriptor with hempty | hfirst
      · rw [hempty]
        exact ⟨rfl, rfl⟩
      · obtain ⟨rest, hrest⟩ := List.head?_eq_some_iff.1 hfirst
        rw [hrest]
        exact ⟨rfl, rfl⟩
    obtain ⟨name, descriptor⟩ := id
    simp only [parse, text, String.toList_append, List.takeWhile_append_of_pos hall,
      List.dropWhile_append_of_pos hall, hstop, List.append_nil, String.ofList_toList]

end MethodId

/-- A method that can be declared: its name and descriptor make up the text, and the text can be
cut into them. -/
def Method.Answers (method : Method) (text : String) : Prop :=
  method.name ++ method.descriptor = text ∧ method.id.Separable

theorem Method.answers_iff {method : Method} {text : String} :
    method.Answers text ↔ method.id = MethodId.parse text := by
  rw [eq_comm, MethodId.parse_eq_iff]
  exact Iff.rfl

/-- A look-up of a declared text finds the first method that answers to it. -/
theorem Class.method?_parse_eq_some_iff {cls : Class} {text : String} {index : Nat}
    {method : Method} :
    cls.method? (MethodId.parse text) = some (index, method) ↔
      cls.methods[index]? = some method ∧ method.Answers text ∧
        ∀ earlier found, earlier < index → cls.methods[earlier]? = some found →
          ¬ found.Answers text := by
  rw [method?_eq_some_iff, not_mem_idsBefore_iff, Method.answers_iff]
  refine and_congr_right fun _ => and_congr_right fun _ => ?_
  constructor
  · intro hfirst earlier found hlt hfound hanswers
    obtain ⟨h, rfl⟩ := List.getElem?_eq_some_iff.1 hfound
    exact hfirst earlier h hlt (Method.answers_iff.1 hanswers)
  · intro hfirst earlier h hlt hsame
    exact hfirst earlier _ hlt (List.getElem?_eq_getElem h) (Method.answers_iff.2 hsame)

/-! ## Missing identifiers -/

/-- Whether the report of a run says that a rule did not find the method with a text. -/
def RuleSet.Reports (rules : RuleSet) (cls : Class) (rule : Rule) (text : String) : Prop :=
  ∃ missing ∈ (rules.redirectClass cls).report.missing,
    missing.rule = rule.name ∧ missing.method.text = text

section Declared

variable {rules : RuleSet} {rule : Rule} {cls : Class} {target : ClassTarget} {text : String}

theorem RuleSet.reports_iff_forall_not_answers (hrule : rule ∈ rules)
    (htarget : target ∈ rule.targets) (hclass : target.className = cls.name)
    (htext : text ∈ target.methods) :
    rules.Reports cls rule text ↔ ∀ method ∈ cls.methods, ¬ method.Answers text := by
  have habsent : (∀ method ∈ cls.methods, ¬ method.Answers text) ↔
      MethodId.parse text ∉ cls.methods.map Method.id := by
    simp only [Method.answers_iff, List.mem_map, not_exists, not_and]
  rw [habsent, Reports, missing_eq_absentIn]
  constructor
  · rintro ⟨missing, hmissing, -, rfl⟩
    obtain ⟨other, -, hother⟩ := List.mem_flatMap.1 hmissing
    obtain ⟨named, -, hnamed⟩ := List.mem_flatMap.1 hother
    obtain ⟨id, hid, rfl⟩ := List.mem_map.1 hnamed
    obtain ⟨hdeclared, hlacks⟩ := List.mem_filter.1 hid
    obtain ⟨declared, -, rfl⟩ := List.mem_map.1 hdeclared
    -- the reported text is the declared one, whichever rule of that name declares it
    rw [MethodId.text_parse]
    exact of_decide_eq_true hlacks
  · intro hlacks
    refine ⟨⟨rule.name, MethodId.parse text⟩, ?_, rfl, MethodId.text_parse text⟩
    refine List.mem_flatMap.2 ⟨rule, hrule, List.mem_flatMap.2 ⟨target, ?_, ?_⟩⟩
    · exact List.mem_filter.2 ⟨htarget, decide_eq_true hclass⟩
    · refine List.mem_map_of_mem (List.mem_filter.2 ⟨?_, decide_eq_true hlacks⟩)
      exact List.mem_map_of_mem htext

end Declared

/-! ## The looks of a run -/

/-- The states of a run in which a rule is about to look for an identifier: the rules in front of
the rule are done, and so are the identifiers that it looks for before this one. -/
def RuleSet.LooksFor (rules : RuleSet) (cls : Class) (rule : Rule) (id : MethodId)
    (state : Pass) : Prop :=
  ∃ before after done rest,
    rules = before ++ rule :: after ∧
      rule.scannedMethods (before.foldl Pass.applyRule (Pass.start cls)).result =
        done ++ id :: rest ∧
      state = done.foldl (Pass.visit rule) (before.foldl Pass.applyRule (Pass.start cls))

/-- A look of a rule goes over the method at a position: its matching calls are replaced and
reported, and nothing else is done. -/
def Pass.Scans (rule : Rule) (index : Nat) (state next : Pass) : Prop :=
  ∃ method, state.result.methods[index]? = some method ∧
    next.result = state.result.modifyMethod index rule.redirectCalls ∧
    next.report.redirections = state.report.redirections ++ rule.redirectionsIn method ∧
    next.report.missing = state.report.missing

namespace RuleSet

variable {rules : RuleSet} {cls : Class} {rule : Rule} {id : MethodId} {state : Pass}

theorem exists_looksFor (hrule : rule ∈ rules) (hid : id ∈ rule.scannedMethods cls) :
    ∃ state, rules.LooksFor cls rule id state := by
  obtain ⟨before, after, hrules⟩ := List.append_of_mem hrule
  obtain ⟨done, rest, hscanned⟩ := List.append_of_mem hid
  refine ⟨_, before, after, done, rest, hrules, ?_, rfl⟩
  rw [result_foldl_applyRule, rewriteClass, Rule.scannedMethods_mapFirst]
  exact hscanned

/-- In every look of a run the class differs from the given one in its instructions only. -/
theorem LooksFor.exists_mapFirst (h : rules.LooksFor cls rule id state) :
    ∃ change, state.result = cls.mapFirst change := by
  obtain ⟨before, after, done, rest, -, -, rfl⟩ := h
  rw [Pass.result_foldl_visit, result_foldl_applyRule, rewriteClass, Class.mapFirst_mapFirst]
  exact ⟨_, rfl⟩

/-- A look goes over the method that the identifier finds in the class as it was given. -/
theorem LooksFor.scans (h : rules.LooksFor cls rule id state) {index : Nat} {method : Method}
    (hfind : cls.method? id = some (index, method)) :
    Pass.Scans rule index state (Pass.visit rule state id) := by
  obtain ⟨change, hresult⟩ := h.exists_mapFirst
  have hnow : state.result.method? id = some (index, method.mapCode (change id)) := by
    rw [hresult, Class.method?_mapFirst, hfind]
    rfl
  refine ⟨method.mapCode (change id), (Class.method?_eq_some_iff.1 hnow).1, ?_⟩
  rw [Pass.visit, hnow]
  exact ⟨rfl, rfl, rfl⟩

end RuleSet

/-- A declared identifier is missing if and only if no method with its text can be cut out of it,
so as long as all methods with the text can, it is missing if and only if no method has the
text.  If one method answers to the identifier, every look for the identifier goes over it. -/
theorem reported_iff_of_declared {rules : RuleSet} {rule : Rule} {cls : Class}
    {target : ClassTarget} {text : String} (hrule : rule ∈ rules)
    (htarget : target ∈ rule.targets) (hclass : target.className = cls.name)
    (htext : text ∈ target.methods) :
    (rules.Reports cls rule text ↔ ∀ method ∈ cls.methods, ¬ method.Answers text) ∧
    ((∀ method ∈ cls.methods, method.name ++ method.descriptor = text → method.id.Separable) →
      (rules.Reports cls rule text ↔
        ∀ method ∈ cls.methods, method.name ++ method.descriptor ≠ text)) ∧
    ∀ (index : Nat) (method : Method), cls.methods[index]? = some method →
      method.Answers text →
      (∀ other found, cls.methods[other]? = some found → found.Answers text → other = index) →
      (∃ state, rules.LooksFor cls rule (MethodId.parse text) state) ∧
      ∀ state, rules.LooksFor cls rule (MethodId.parse text) state →
        Pass.Scans rule index state (Pass.visit rule state (MethodId.parse text)) := by
  have hreports := RuleSet.reports_iff_forall_not_answers hrule htarget hclass htext
  refine ⟨hreports, fun hseparable => ?_, fun index method hmethod hanswers honly => ⟨?_, ?_⟩⟩
  · rw [hreports]
    refine forall₂_congr fun method hmethod => not_congr ?_
    exact and_iff_left_of_imp (hseparable method hmethod)
  · refine RuleSet.exists_looksFor hrule (Rule.mem_scannedMethods_iff.2 ?_)
    exact ⟨target, htarget, hclass, .inl ⟨text, htext, rfl⟩⟩
  · intro state hlooks
    refine hlooks.scans (Class.method?_parse_eq_some_iff.2 ⟨hmethod, hanswers, ?_⟩)
    intro earlier found hlt hfound hother
    have hsame := honly earlier found hfound hother
    omega

/-- Of two methods that make up the declared text, only the second one answers to it. -/
theorem reported_iff_of_declared_two_methods :
    let target : ClassTarget := ⟨"A", ["gone()V", "a(b()V"]⟩
    let rule : Rule := ⟨"r", .virtual, "f", "()V", [target], .rename "g" none⟩
    let body : List Instruction := [⟨0, 0xb6, some ⟨"B", "f", "()V", .virtual, 0⟩⟩]
    let cls : Class := ⟨"A", [⟨"a(b", "()V", 0, body⟩, ⟨"a", "(b()V", 0, body⟩], 0⟩
    RuleSet.Reports [rule] cls rule "gone()V" ∧ ¬ RuleSet.Reports [rule] cls rule "a(b()V" ∧
      ∃ state next, RuleSet.LooksFor [rule] cls rule ⟨"a", "(b()V"⟩ state ∧
        Pass.Scans rule 1 state next := by
  intro target rule body cls
  have hrule : rule ∈ [rule] := List.mem_cons_self
  have htarget : target ∈ rule.targets := List.mem_cons_self
  have hclass : target.className = cls.name := rfl
  have hfirst : "gone()V" ∈ target.methods := by decide
  have hlast : "a(b()V" ∈ target.methods := by decide
  obtain ⟨-, hgone, -⟩ := reported_iff_of_declared hrule htarget hclass hfirst
  obtain ⟨hreports, -, hscans⟩ := reported_iff_of_declared hrule htarget hclass hlast
  have hsecond : Method.Answers ⟨"a", "(b()V", 0, body⟩ "a(b()V" := ⟨by decide, by decide⟩
  refine ⟨(hgone (by decide)).2 (by decide), ?_, ?_⟩
  · intro hmissing
    exact hreports.1 hmissing ⟨"a", "(b()V", 0, body⟩ (by decide) hsecond
  · have honly : ∀ other found, cls.methods[other]? = some found →
        found.Answers "a(b()V" → other = 1 := by
      intro other found hfound hanswers
      match other with
      | 0 =>
          obtain rfl := Option.some.inj hfound
          exact absurd hanswers.2 (by decide)
      | 1 => rfl
      | other + 2 => cases hfound
    obtain ⟨⟨state, hlooks⟩, hall⟩ := hscans 1 _ rfl hsecond honly
    exact ⟨state, _, hlooks, hall state hlooks⟩

/-- A method whose name holds a parenthesis is reported as missing, although its name with its
descriptor is the declared identifier; its calls are not replaced. -/
theorem reported_despite_method :
    let method : Method := ⟨"a(b", "()V", 1, [⟨0, 0xb6, some ⟨"B", "f", "()V", .virtual, 0⟩⟩]⟩
    let rule : Rule := ⟨"r", .virtual, "f", "()V", [⟨"A", ["a(b()V"]⟩], .rename "g" none⟩
    let cls : Class := ⟨"A", [method], 0⟩
    (∀ letter ∈ ".;[/<>".toList, letter ∉ method.name.toList) ∧
      method.name ++ method.descriptor = "a(b()V" ∧
      (RuleSet.redirectClass [rule] cls).result = cls ∧
      ¬ (RuleSet.Reports [rule] cls rule "a(b()V" ↔
        ∀ method ∈ cls.methods, method.name ++ method.descriptor ≠ "a(b()V") := by
  intro method rule cls
  have hmissing : RuleSet.Reports [rule] cls rule "a(b()V" :=
    ⟨⟨"r", ⟨"a", "(b()V"⟩⟩, by decide, rfl, by decide⟩
  refine ⟨by simp [method], by decide, by decide, fun hiff => ?_⟩
  exact hiff.1 hmissing method List.mem_cons_self (by decide)

end CallRedirect
