import CallRedirect.Proofs.Report

/-!
# The log of the passes

Everything that the passes do to a class is reported and logged.  The log alone tells what the
report says, and the report alone tells what was logged.

* A `Look` is one visit of a rule: what it looks for, and the method that it finds, as it is
  then.  `Pass.Adds` says what a sequence of looks adds to the report and to the log.
* `Pass.Adds.visit` is the step: one visit adds one look.  The runs follow by appending.
* `redirectClass_events_tell`: the errors of the log are the missing methods, and its debug
  events are the replaced calls, both in the order of the report.

An identifier that is declared twice is looked for twice.  The events of one look stand together,
and the looks come one after the other; the events of two looks for the same identifier need not
stand side by side.
-/

namespace CallRedirect

/-- One look of a rule: what it looks for, and the method that it finds. -/
structure Look where
  rule : Rule
  id : MethodId
  found : Option Method

namespace Look

/-- What a look reports as missing: what it looks for, if it finds nothing. -/
def missing (look : Look) : List MissingMethod :=
  match look.found with
  | none => [⟨look.rule.name, look.id⟩]
  | some _ => []

/-- The calls that a look replaces in the method that it finds. -/
def redirections (look : Look) : List Redirection :=
  match look.found with
  | none => []
  | some method => look.rule.redirectionsIn method

/-- What a look in a class logs. -/
def events (className : String) (look : Look) : List Event :=
  look.missing.map (·.event className) ++ look.redirections.map (·.event className)

theorem missing_eq_nil_or_redirections_eq_nil (look : Look) :
    look.missing = [] ∨ look.redirections = [] := by
  unfold missing redirections
  cases look.found with
  | none => exact .inr rfl
  | some method => exact .inl rfl

theorem eq_of_mem_missing {look : Look} {missing : MissingMethod} (h : missing ∈ look.missing) :
    missing = ⟨look.rule.name, look.id⟩ := by
  unfold Look.missing at h
  cases hfound : look.found with
  | none =>
      rw [hfound] at h
      exact List.mem_singleton.1 h
  | some method =>
      rw [hfound] at h
      cases h

/-- A look is for the method that it finds. -/
def Finds (look : Look) : Prop := ∀ method, look.found = some method → method.id = look.id

/-- The entries of a look are about the method that it is for. -/
theorem Finds.id_eq {look : Look} (h : look.Finds) {entry : Redirection}
    (hentry : entry ∈ look.redirections) : entry.rule = look.rule.name ∧ entry.id = look.id := by
  unfold redirections at hentry
  cases hfound : look.found with
  | none =>
      rw [hfound] at hentry
      cases hentry
  | some method =>
      rw [hfound] at hentry
      obtain ⟨placed, -, rfl⟩ := List.mem_map.1 hentry
      exact ⟨rfl, h method hfound⟩

end Look

/-! ## Levels -/

theorem MissingMethod.level_event (missing : MissingMethod) (className : String) :
    (missing.event className).level = .error := rfl

theorem Redirection.level_event (entry : Redirection) (className : String) :
    (entry.event className).level = .debug := rfl

namespace Look

theorem filter_error_events (className : String) (look : Look) :
    (look.events className).filter (·.level = .error) =
      look.missing.map (·.event className) := by
  simp [events, List.filter_map, Function.comp_def, MissingMethod.level_event,
    Redirection.level_event]

theorem filter_debug_events (className : String) (look : Look) :
    (look.events className).filter (·.level = .debug) =
      look.redirections.map (·.event className) := by
  simp [events, List.filter_map, Function.comp_def, MissingMethod.level_event,
    Redirection.level_event]

end Look

/-! ## What events show -/

theorem MissingMethod.message_event (missing : MissingMethod) (className : String) :
    (missing.event className).message = "failed to redirect method call for " ++ missing.rule ++
      ": method " ++ missing.method.text ++ " not found in class " ++ className := by
  have hlead : "failed" ++ " to redirect method call for " =
      "failed to redirect method call for " := by decide
  rw [← hlead]
  rfl

theorem MissingMethod.fields_event (missing : MissingMethod) (className : String) :
    (missing.event className).fields =
      [("rule", .text missing.rule), ("method", .text missing.method.text),
        ("class", .text className)] := rfl

theorem Redirection.message_event (entry : Redirection) (className : String) :
    (entry.event className).message = "redirecting method call " ++ entry.matched.name ++
      entry.matched.descriptor ++ " to " ++ entry.replacement.name ++
      entry.replacement.descriptor ++ " inside of " ++ className ++ "." ++ entry.method := rfl

theorem Redirection.fields_event (entry : Redirection) (className : String) :
    (entry.event className).fields =
      [("rule", .text entry.rule), ("offset", .number entry.matched.offset.toNat)] := rfl

/-! ## What looks add -/

namespace Pass

/-- The looks that lead from one state to a later one: their entries and events are what was
added to the report and to the log. -/
structure Adds (state later : Pass) (looks : List Look) : Prop where
  name : later.result.name = state.result.name
  finds : ∀ look ∈ looks, look.Finds
  redirections : later.report.redirections =
    state.report.redirections ++ looks.flatMap Look.redirections
  missing : later.report.missing = state.report.missing ++ looks.flatMap Look.missing
  events : later.events = state.events ++ looks.flatMap (·.events state.result.name)

namespace Adds

variable {state middle later : Pass} {looks others : List Look}

theorem refl (state : Pass) : Adds state state [] where
  name := rfl
  finds := fun _ hlook => absurd hlook List.not_mem_nil
  redirections := (List.append_nil _).symm
  missing := (List.append_nil _).symm
  events := (List.append_nil _).symm

theorem append (h : Adds state middle looks) (hlater : Adds middle later others) :
    Adds state later (looks ++ others) where
  name := hlater.name.trans h.name
  finds := by
    intro look hlook
    rcases List.mem_append.1 hlook with hlook | hlook
    · exact h.finds look hlook
    · exact hlater.finds look hlook
  redirections := by
    rw [hlater.redirections, h.redirections, List.flatMap_append, List.append_assoc]
  missing := by
    rw [hlater.missing, h.missing, List.flatMap_append, List.append_assoc]
  events := by
    rw [hlater.events, h.events, h.name, List.flatMap_append, List.append_assoc]

/-- A visit adds the look for its method, which is found as it is before the visit. -/
theorem visit (rule : Rule) (state : Pass) (id : MethodId) :
    Adds state (Pass.visit rule state id)
      [⟨rule, id, (state.result.method? id).map Prod.snd⟩] := by
  unfold Pass.visit
  cases hfind : state.result.method? id with
  | none =>
      constructor
      · rfl
      · rintro look hlook method hmethod
        rw [List.mem_singleton.1 hlook] at hmethod
        cases hmethod
      · exact (List.append_nil _).symm
      · rfl
      · rfl
  | some found =>
      obtain ⟨index, method⟩ := found
      have hid : method.id = id := (Class.method?_eq_some_iff.1 hfind).2.1
      constructor
      · rfl
      · rintro look hlook other hother
        rw [List.mem_singleton.1 hlook] at hother ⊢
        cases hother
        exact hid
      · simp [Look.redirections]
      · simp [Look.missing]
      · simp [Look.events, Look.redirections, Look.missing]

end Adds

/-- Visits of a rule add a look for each method, in order. -/
theorem exists_adds_foldl_visit (rule : Rule) (ids : List MethodId) (state : Pass) :
    ∃ looks, looks.map (fun look => (look.rule, look.id)) = ids.map (rule, ·) ∧
      Adds state (ids.foldl (visit rule) state) looks := by
  induction ids generalizing state with
  | nil => exact ⟨[], rfl, Adds.refl state⟩
  | cons id ids ih =>
      obtain ⟨looks, hlooks, hadds⟩ := ih (visit rule state id)
      refine ⟨_, ?_, (Adds.visit rule state id).append hadds⟩
      rw [List.map_append, hlooks, List.map_cons]
      rfl

/-- The rules add their looks one after the other.  What they look for is settled by the class
as it is before the first of them. -/
theorem exists_adds_foldl_applyRule (rules : List Rule) (state : Pass) :
    ∃ looks, looks.map (fun look => (look.rule, look.id)) =
        rules.flatMap (fun rule => (rule.scannedMethods state.result).map (rule, ·)) ∧
      Adds state (rules.foldl applyRule state) looks := by
  induction rules generalizing state with
  | nil => exact ⟨[], rfl, Adds.refl state⟩
  | cons rule rules ih =>
      obtain ⟨first, hfirst, hadds⟩ :=
        exists_adds_foldl_visit rule (rule.scannedMethods state.result) state
      obtain ⟨others, hothers, hlater⟩ := ih (state.applyRule rule)
      refine ⟨first ++ others, ?_, hadds.append hlater⟩
      -- a rule changes calls only, so the later rules look for the same methods behind it
      simp only [result_applyRule, Rule.scannedMethods_mapFirst] at hothers
      rw [List.map_append, hfirst, hothers, List.flatMap_cons]

end Pass

/-! ## The whole log -/

/-- The log of a class and its report tell the same.  The errors are the missing methods and the
debug events are the replaced calls, one for one and in order, each with the message and the
fields that show it, and there are no other events.
Both come from the looks of the rules in order, and each look logs either that its method is
missing or the calls that it replaces in this method. -/
theorem redirectClass_events_tell (rules : RuleSet) (cls : Class) :
    let pass := rules.redirectClass cls
    pass.events.filter (·.level = .error) = pass.report.missing.map (fun missing =>
      .methodMissing missing.rule cls.name missing.method) ∧
    pass.events.filter (·.level = .debug) = pass.report.redirections.map (fun entry =>
      .callRedirected entry.rule cls.name entry.method entry.matched entry.replacement) ∧
    ((pass.events.filter (·.level = .error)).map fun event => (event.message, event.fields)) =
      (pass.report.missing.map fun missing =>
        ("failed to redirect method call for " ++ missing.rule ++ ": method " ++
            missing.method.text ++ " not found in class " ++ cls.name,
          [("rule", .text missing.rule), ("method", .text missing.method.text),
            ("class", .text cls.name)])) ∧
    ((pass.events.filter (·.level = .debug)).map fun event => (event.message, event.fields)) =
      (pass.report.redirections.map fun entry =>
        ("redirecting method call " ++ entry.matched.name ++ entry.matched.descriptor ++ " to " ++
            entry.replacement.name ++ entry.replacement.descriptor ++ " inside of " ++
            cls.name ++ "." ++ entry.method,
          [("rule", .text entry.rule), ("offset", .number entry.matched.offset.toNat)])) ∧
    (∀ event ∈ pass.events, event.level = .error ∨ event.level = .debug) ∧
    ∃ looks : List Look,
      looks.map (fun look => (look.rule, look.id)) =
        rules.flatMap (fun rule => (rule.scannedMethods cls).map (rule, ·)) ∧
      pass.report = ⟨looks.flatMap Look.redirections, looks.flatMap Look.missing⟩ ∧
      pass.events = looks.flatMap (·.events cls.name) ∧
      ∀ look ∈ looks, (look.missing = [] ∨ look.redirections = []) ∧
        (∀ missing ∈ look.missing, missing.rule = look.rule.name ∧ missing.method = look.id) ∧
        ∀ entry ∈ look.redirections, entry.rule = look.rule.name ∧ entry.id = look.id := by
  intro pass
  obtain ⟨looks, hlooks, hadds⟩ := Pass.exists_adds_foldl_applyRule rules (Pass.start cls)
  have hredirections : pass.report.redirections = looks.flatMap Look.redirections :=
    hadds.redirections
  have hmissing : pass.report.missing = looks.flatMap Look.missing := hadds.missing
  have hevents : pass.events = looks.flatMap (·.events cls.name) := hadds.events
  have herrors : pass.events.filter (·.level = .error) =
      pass.report.missing.map (·.event cls.name) := by
    rw [hevents, hmissing, List.filter_flatMap, List.map_flatMap]
    exact List.flatMap_congr fun look _ => look.filter_error_events cls.name
  have hdebug : pass.events.filter (·.level = .debug) =
      pass.report.redirections.map (·.event cls.name) := by
    rw [hevents, hredirections, List.filter_flatMap, List.map_flatMap]
    exact List.flatMap_congr fun look _ => look.filter_debug_events cls.name
  refine ⟨herrors, hdebug, ?absences, ?replacements, ?others, looks, hlooks, ?report, hevents,
    ?each⟩
  case absences =>
    rw [herrors, List.map_map]
    exact List.map_congr_left fun missing _ =>
      Prod.ext (missing.message_event cls.name) (missing.fields_event cls.name)
  case replacements =>
    rw [hdebug, List.map_map]
    exact List.map_congr_left fun entry _ =>
      Prod.ext (entry.message_event cls.name) (entry.fields_event cls.name)
  case others =>
    intro event hevent
    rw [hevents] at hevent
    obtain ⟨look, -, hlook⟩ := List.mem_flatMap.1 hevent
    rcases List.mem_append.1 hlook with hmissing | hentry
    · obtain ⟨missing, -, rfl⟩ := List.mem_map.1 hmissing
      exact .inl (missing.level_event cls.name)
    · obtain ⟨entry, -, rfl⟩ := List.mem_map.1 hentry
      exact .inr (entry.level_event cls.name)
  case report => rw [← hredirections, ← hmissing]
  case each =>
    intro look hlook
    refine ⟨look.missing_eq_nil_or_redirections_eq_nil, ?_, fun _ => (hadds.finds look hlook).id_eq⟩
    intro missing hmissing
    rw [Look.eq_of_mem_missing hmissing]
    exact ⟨rfl, rfl⟩

/-- The rule looks twice for a method that is not there, and replaces two calls in between.  The
events of the two looks do not stand side by side. -/
theorem redirectClass_events_tell_between :
    let rules : RuleSet :=
      [⟨"r", .virtual, "f", "()V", [⟨"A", ["a()V", "m()V", "a()V"]⟩], .rename "g" none⟩]
    let call (name : String) (offset : UInt32) : CallSite := ⟨"B", name, "()V", .virtual, offset⟩
    let cls : Class := ⟨"A", [⟨"m", "()V", 0,
      [⟨0, 0xb6, some (call "f" 0)⟩, ⟨3, 0xb6, some (call "f" 3)⟩]⟩], 0⟩
    let missing : Event := .methodMissing "r" "A" ⟨"a", "()V"⟩
    let replaced (offset : UInt32) : Event :=
      .callRedirected "r" "A" "m" (call "f" offset) (call "g" offset)
    let pass := rules.redirectClass cls
    pass.events = [missing, replaced 0, replaced 3, missing] ∧
    pass.report.missing.length = 2 ∧ pass.report.redirections.length = 2 ∧
    (∀ event ∈ pass.events, event.level = .error ∨ event.level = .debug) ∧
    ∃ looks : List Look, looks.map Look.id = [⟨"a", "()V"⟩, ⟨"m", "()V"⟩, ⟨"a", "()V"⟩] ∧
      pass.events = looks.flatMap (·.events "A") := by
  intro rules call cls missing replaced pass
  have hevents : pass.events = [missing, replaced 0, replaced 3, missing] := by decide
  obtain ⟨herrors, hdebug, -, -, hlevels, looks, hlooks, -, hjoined, -⟩ :=
    redirectClass_events_tell rules cls
  refine ⟨hevents, ?_, ?_, hlevels, looks, ?_, hjoined⟩
  · have hcount := congrArg List.length herrors
    rw [List.length_map] at hcount
    rw [← hcount]
    decide
  · have hcount := congrArg List.length hdebug
    rw [List.length_map] at hcount
    rw [← hcount]
    decide
  · have hids := congrArg (List.map Prod.snd) hlooks
    rw [List.map_map] at hids
    exact hids.trans (by decide)

end CallRedirect
