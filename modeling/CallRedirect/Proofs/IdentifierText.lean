import CallRedirect.Proofs.Batching
import CallRedirect.Proofs.EventLog
import CallRedirect.Proofs.IdentifierResolution
import CallRedirect.Proofs.ReportDocument

/-!
# Identifiers are shown as they were declared

Targets declare a method by a text, which is cut into a name and a descriptor to look it up.  The
log and the report show the two parts one behind the other, which is the text that was declared
(`MethodId.text_parse`).  Other identifiers need NOT come back from their text: those do that are
separable (`MethodId.parse_text_eq_self_iff`).

* A `Declaration` is such a text together with the rule that declares it and the class that it is
  declared for; `RuleSet.absentDeclarations` are those to which no method of a class answers.
* `RuleSet.missing_eq_absentDeclarations`: the missing methods of a class come from these, in
  order.  The synthetic methods, whose identifiers nobody declares, are never missing.
* `RuleSet.errors_redirectClasses` and `RuleSet.missingResults_redirectClasses` find them again in
  the log and in the results of many classes.
-/

namespace CallRedirect

namespace MethodId

theorem parse_injective : Function.Injective parse := by
  intro text other h
  rw [← text_parse text, h, text_parse]

/-- An identifier comes back from its text if and only if it is separable. -/
theorem parse_text_eq_self_iff {id : MethodId} : parse id.text = id ↔ id.Separable := by
  rw [parse_eq_iff]
  exact and_iff_right rfl

end MethodId

theorem Sarif.Result.at?_json_message (result : Sarif.Result) :
    result.json.at? ["message", "text"] = some (.string result.message) := rfl

/-! ## Declared texts -/

/-- An identifier that a rule declares for a class, as it is written. -/
structure Declaration where
  rule : String
  text : String
  className : String
  deriving DecidableEq, Repr

/-- The sentence about a declaration to which no method answers. -/
def Declaration.absence (lead : String) (declaration : Declaration) : String :=
  lead ++ " to redirect method call for " ++ declaration.rule ++ ": method " ++
    declaration.text ++ " not found in class " ++ declaration.className

namespace Declaration

/-- The event of finding no method for a declaration. -/
def event (declaration : Declaration) : Event :=
  .methodMissing declaration.rule declaration.className (MethodId.parse declaration.text)

theorem missingText_eq_absence (lead : String) (declaration : Declaration) :
    Event.missingText lead declaration.rule declaration.className
      (MethodId.parse declaration.text) = declaration.absence lead := by
  rw [Event.missingText, MethodId.text_parse, absence]

theorem message_event (declaration : Declaration) :
    declaration.event.message = declaration.absence "failed" :=
  declaration.missingText_eq_absence "failed"

theorem fields_event (declaration : Declaration) :
    declaration.event.fields =
      [("rule", .text declaration.rule), ("method", .text declaration.text),
        ("class", .text declaration.className)] := by
  show [_, ("method", FieldValue.text (MethodId.parse declaration.text).text), _] = _
  rw [MethodId.text_parse]

end Declaration

namespace RuleSet

/-- Whether a rule of that name has a target for the class that lists the text. -/
def Declares (rules : RuleSet) (declaration : Declaration) : Prop :=
  ∃ rule ∈ rules, rule.name = declaration.rule ∧
    ∃ target ∈ rule.targets, target.className = declaration.className ∧
      declaration.text ∈ target.methods

/-- What the rules declare for a class and no method of it answers to, in order. -/
def absentDeclarations (rules : RuleSet) (cls : Class) : List Declaration :=
  rules.flatMap fun rule => (rule.targetsFor cls.name).flatMap fun target =>
    (target.methods.filter fun text => MethodId.parse text ∉ cls.methods.map Method.id).map
      (⟨rule.name, ·, cls.name⟩)

theorem declares_of_mem_absentDeclarations {rules : RuleSet} {cls : Class}
    {declaration : Declaration} (h : declaration ∈ rules.absentDeclarations cls) :
    rules.Declares declaration := by
  obtain ⟨rule, hrule, htargets⟩ := List.mem_flatMap.1 h
  obtain ⟨target, htarget, htexts⟩ := List.mem_flatMap.1 htargets
  obtain ⟨text, htext, rfl⟩ := List.mem_map.1 htexts
  obtain ⟨hlisted, hclass⟩ := List.mem_filter.1 htarget
  exact ⟨rule, hrule, rfl, target, hlisted, of_decide_eq_true hclass, List.mem_of_mem_filter htext⟩

/-- The missing methods of a class are the declarations to which none of its methods answers. -/
theorem missing_eq_absentDeclarations (rules : RuleSet) (cls : Class) :
    (rules.redirectClass cls).report.missing =
      (rules.absentDeclarations cls).map fun declaration =>
        ⟨declaration.rule, MethodId.parse declaration.text⟩ := by
  rw [missing_eq_absentIn, absentDeclarations, List.map_flatMap]
  refine List.flatMap_congr fun rule _ => ?_
  rw [Rule.absentIn, List.map_flatMap]
  refine List.flatMap_congr fun target _ => ?_
  rw [ClassTarget.absentIn, List.filter_map, List.map_map, List.map_map]
  rfl

theorem className_of_mem_absentDeclarations {rules : RuleSet} {cls : Class}
    {declaration : Declaration} (h : declaration ∈ rules.absentDeclarations cls) :
    declaration.className = cls.name := by
  obtain ⟨rule, -, htargets⟩ := List.mem_flatMap.1 h
  obtain ⟨target, -, htexts⟩ := List.mem_flatMap.1 htargets
  obtain ⟨text, -, rfl⟩ := List.mem_map.1 htexts
  rfl

/-! ## The log and the results -/

/-- The errors that the rules log for a class are about its missing methods, in order. -/
theorem errors_redirectClass (rules : RuleSet) (cls : Class) :
    (rules.redirectClass cls).events.filter (·.level = .error) =
      (rules.redirectClass cls).report.missing.map (·.event cls.name) := by
  obtain ⟨looks, -, hadds⟩ := Pass.exists_adds_foldl_applyRule rules (Pass.start cls)
  have hmissing : (rules.redirectClass cls).report.missing = looks.flatMap Look.missing :=
    hadds.missing
  have hevents : (rules.redirectClass cls).events = looks.flatMap (·.events cls.name) :=
    hadds.events
  rw [hevents, hmissing, List.filter_flatMap, List.map_flatMap]
  exact List.flatMap_congr fun look _ => look.filter_error_events cls.name

/-- A class adds its missing methods to the errors of the log, whether a rule names it or not. -/
theorem errors_ofClass (rules : RuleSet) (cls : Class) :
    (Batch.ofClass rules cls).events.filter (·.level = .error) =
      (rules.redirectClass cls).report.missing.map (·.event cls.name) := by
  rw [← errors_redirectClass]
  unfold Batch.ofClass Batch.add
  split
  · have hnothing : ∀ name, (Event.nothingRedirected name).level ≠ .error := fun _ => nofun
    simp only [Batch.empty, List.nil_append, List.filter_append]
    split
    · rw [List.filter_cons_of_neg (by simpa using hnothing _), List.filter_nil, List.append_nil]
    · rw [List.filter_nil, List.append_nil]
  · next hnone =>
    rw [mem_targetClasses_iff] at hnone
    rw [redirectClass_of_not_targets hnone]
    rfl

/-- The errors of the log are about the absent declarations of the classes, in order. -/
theorem errors_redirectClasses (rules : RuleSet) (classes : List Class) :
    (rules.redirectClasses classes).events.filter (·.level = .error) =
      (classes.flatMap rules.absentDeclarations).map (·.event) := by
  induction classes with
  | nil => rfl
  | cons cls classes ih =>
      have hevents : (rules.redirectClasses (cls :: classes)).events =
          (Batch.ofClass rules cls).events ++ (rules.redirectClasses classes).events := by
        rw [redirectClasses_cons]
        rfl
      rw [hevents, List.filter_append, ih, errors_ofClass, missing_eq_absentDeclarations,
        List.flatMap_cons, List.map_append, List.map_map]
      refine congrArg (· ++ _) (List.map_congr_left fun declaration hmem => ?_)
      rw [Declaration.event, className_of_mem_absentDeclarations hmem]
      rfl

/-- The results about a class rather than a method are those for its missing methods. -/
theorem filter_kind_resultsFor (rules : RuleSet) (cls : Class) :
    (rules.resultsFor cls).filter (·.place.kind = "type") =
      (rules.redirectClass cls).report.missing.map (.ofMissing cls.name cls.artifact) := by
  rw [resultsFor, List.filter_append, List.filter_eq_nil_iff.2, List.nil_append,
    List.filter_eq_self.2]
  · intro result hresult
    obtain ⟨missing, -, rfl⟩ := List.mem_map.1 hresult
    exact decide_eq_true rfl
  · intro result hresult
    obtain ⟨entry, -, rfl⟩ := List.mem_map.1 hresult
    exact fun hkind => absurd (of_decide_eq_true hkind) (by decide : ("function" : String) ≠ "type")

/-- The messages of the results for missing methods are about the absent declarations of the
classes, in order. -/
theorem missingResults_redirectClasses (rules : RuleSet) (classes : List Class) :
    ((rules.redirectClasses classes).results.filter (·.place.kind = "type")).map (·.message) =
      (classes.flatMap rules.absentDeclarations).map (·.absence "Failed") := by
  rw [results_redirectClasses, List.filter_flatMap, List.map_flatMap, List.map_flatMap]
  refine List.flatMap_congr fun cls _ => ?_
  rw [filter_kind_resultsFor, missing_eq_absentDeclarations, List.map_map, List.map_map]
  refine List.map_congr_left fun declaration hmem => ?_
  rw [Function.comp_apply, ← declaration.missingText_eq_absence,
    className_of_mem_absentDeclarations hmem]
  rfl

end RuleSet

/-- Cutting a text and showing the parts gives the text again, so no two texts are cut into the
same parts; an identifier comes back from its text if and only if its name has no opening
parenthesis and its descriptor is empty or begins with one.  So the report of a class, the events
for missing methods and the results for them all show what the targets declare, word for word: the
declared texts to which no method answers, in order.  Of an event its message and its fields are
meant; the line of the log that is printed for it has control characters of the message escaped. -/
theorem missing_texts_verbatim :
    (∀ text, (MethodId.parse text).text = text) ∧ Function.Injective MethodId.parse ∧
    (∀ id : MethodId, MethodId.parse id.text = id ↔
      '(' ∉ id.name.toList ∧
        (id.descriptor = "" ∨ id.descriptor.toList.head? = some '(')) ∧
    ∀ rules : RuleSet,
      (∀ cls : Class,
        (∀ declaration ∈ rules.absentDeclarations cls,
          rules.Declares declaration ∧ declaration.className = cls.name) ∧
        (rules.redirectClass cls).report.missing.map
            (fun missing => (missing.rule, missing.method.text)) =
          (rules.absentDeclarations cls).map fun declaration =>
            (declaration.rule, declaration.text)) ∧
      ∀ classes : List Class,
        let batch := rules.redirectClasses classes
        let absent := classes.flatMap rules.absentDeclarations
        (batch.events.filter (·.level = .error)).map
            (fun event => (event.message, event.fields)) =
          absent.map (fun declaration => (declaration.absence "failed",
            [("rule", .text declaration.rule), ("method", .text declaration.text),
              ("class", .text declaration.className)])) ∧
        (batch.results.filter (·.place.kind = "type")).map
            (fun result => result.json.at? ["message", "text"]) =
          absent.map fun declaration => some (.string (declaration.absence "Failed")) := by
  refine ⟨MethodId.text_parse, MethodId.parse_injective,
    fun id => MethodId.parse_text_eq_self_iff, fun rules => ⟨fun cls => ⟨?_, ?_⟩, ?_⟩⟩
  · intro declaration hmem
    exact ⟨RuleSet.declares_of_mem_absentDeclarations hmem,
      RuleSet.className_of_mem_absentDeclarations hmem⟩
  · rw [RuleSet.missing_eq_absentDeclarations, List.map_map]
    refine List.map_congr_left fun declaration _ => ?_
    show (declaration.rule, (MethodId.parse declaration.text).text) = _
    rw [MethodId.text_parse]
  · intro classes batch absent
    constructor
    · rw [RuleSet.errors_redirectClasses, List.map_map]
      exact List.map_congr_left fun declaration _ =>
        Prod.ext declaration.message_event declaration.fields_event
    · have hmessages := congrArg (List.map fun text => some (Json.Value.string text))
        (rules.missingResults_redirectClasses classes)
      simp only [List.map_map, Function.comp_def] at hmessages
      simp only [Sarif.Result.at?_json_message]
      exact hmessages

/-- Of three declared identifiers two are missing and are shown as they are written.  The first
one is cut before its first parenthesis, so it does not come back from the parts of a method with
another name. -/
theorem missing_texts_verbatim_parentheses :
    let rules : RuleSet :=
      [⟨"r", .virtual, "f", "()V", [⟨"A", ["a(b()V", "m()V", "gone"]⟩], .rename "g" none⟩]
    let cls : Class := ⟨"A", [⟨"a(b", "()V", 0, []⟩, ⟨"m", "()V", 0, []⟩], 0⟩
    MethodId.parse (MethodId.text ⟨"a(b", "()V"⟩) ≠ ⟨"a(b", "()V"⟩ ∧
      (rules.redirectClass cls).report.missing.map (fun missing => missing.method.text) =
        ["a(b()V", "gone"] ∧
      ((rules.redirectClasses [cls]).events.filter (·.level = .error)).map Event.message =
        ["failed to redirect method call for r: method a(b()V not found in class A",
          "failed to redirect method call for r: method gone not found in class A"] := by
  intro rules cls
  obtain ⟨-, -, hcomes, hall⟩ := missing_texts_verbatim
  obtain ⟨hclass, hlists⟩ := hall rules
  have habsent : rules.absentDeclarations cls = [⟨"r", "a(b()V", "A"⟩, ⟨"r", "gone", "A"⟩] := by
    decide
  refine ⟨fun hback => absurd ((hcomes _).1 hback).1 (by decide), ?_, ?_⟩
  · have htexts := congrArg (List.map Prod.snd) (hclass cls).2
    rw [List.map_map, habsent] at htexts
    exact htexts
  · have hmessages := congrArg (List.map Prod.fst) (hlists [cls]).1
    rw [List.map_map, List.flatMap_singleton, habsent] at hmessages
    exact hmessages.trans (by decide)

end CallRedirect
