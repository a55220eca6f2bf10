import CallRedirect.Bytes
import CallRedirect.Event.Logged

/-!
# Outcomes of steps that can fail

A step gives a value or an error.  A chain of steps gives a value exactly if
each of them does.  The outcome of a chain of logged steps is the chain of their
outcomes, so what holds for steps that are not logged holds for them, too.
-/

namespace CallRedirect

variable {ε ε' α β : Type}

@[simp] theorem ok_bind (value : α) (next : α → Except ε β) :
    (Except.ok value >>= next) = next value := rfl

@[simp] theorem error_bind (cause : ε) (next : α → Except ε β) :
    (Except.error cause >>= next) = .error cause := rfl

theorem bind_eq_ok_iff {step : Except ε α} {next : α → Except ε β} {value : β} :
    step >>= next = .ok value ↔ ∃ first, step = .ok first ∧ next first = .ok value := by
  cases step <;> simp

theorem map_eq_ok_iff {step : Except ε α} {change : α → β} {value : β} :
    step.map change = .ok value ↔ ∃ first, step = .ok first ∧ change first = value := by
  cases step <;> simp [Except.map]

@[simp] theorem mapError_ok (explain : ε → ε') (value : α) :
    (Except.ok value).mapError explain = .ok value := rfl

@[simp] theorem mapError_error (explain : ε → ε') (cause : ε) :
    (Except.error cause : Except ε α).mapError explain = .error (explain cause) := rfl

theorem mapError_eq_ok_iff {step : Except ε α} {explain : ε → ε'} {value : α} :
    step.mapError explain = .ok value ↔ step = .ok value := by
  cases step <;> simp

theorem pure_eq_ok_iff {first value : α} :
    (pure first : Except ε α) = .ok value ↔ first = value := by
  simp [pure, Except.pure]

theorem toOption_eq_some_iff {step : Except ε α} {value : α} :
    step.toOption = some value ↔ step = .ok value := by
  cases step <;> simp [Except.toOption]

/-- Every value that a list of steps gives comes from one of them. -/
theorem exists_of_mem_mapM {step : α → Except ε β} {items : List α} {values : List β}
    (h : items.mapM step = .ok values) :
    ∀ value ∈ values, ∃ item ∈ items, step item = .ok value := by
  induction items generalizing values with
  | nil =>
      rw [List.mapM_nil, pure_eq_ok_iff] at h
      simp [← h]
  | cons item items ih =>
      simp only [List.mapM_cons, bind_eq_ok_iff, pure_eq_ok_iff] at h
      obtain ⟨first, hfirst, others, hothers, rfl⟩ := h
      intro value hvalue
      rcases List.mem_cons.1 hvalue with rfl | hvalue
      · exact ⟨item, List.mem_cons_self, hfirst⟩
      · obtain ⟨found, hfound, hstep⟩ := ih hothers value hvalue
        exact ⟨found, List.mem_cons_of_mem _ hfound, hstep⟩

/-- A list of steps fails with the first step that fails. -/
theorem mapM_append_cons_eq_error {step : α → Except ε β} {before after : List α} {item : α}
    {values : List β} {cause : ε} (hbefore : before.mapM step = .ok values)
    (hitem : step item = .error cause) :
    (before ++ item :: after).mapM step = .error cause := by
  induction before generalizing values with
  | nil => simp [List.mapM_cons, hitem]
  | cons first before ih =>
      simp only [List.mapM_cons, bind_eq_ok_iff, pure_eq_ok_iff] at hbefore
      obtain ⟨value, hfirst, others, hothers, -⟩ := hbefore
      rw [List.cons_append, List.mapM_cons, hfirst, ok_bind, ih hothers, error_bind]

theorem mapM_eq_error_iff {step : α → Except ε β} {items : List α} {cause : ε} :
    items.mapM step = .error cause ↔
      ∃ before item after, items = before ++ item :: after ∧
        (∃ values, before.mapM step = .ok values) ∧ step item = .error cause := by
  constructor
  · intro h
    induction items with
    | nil => cases h
    | cons item items ih =>
        rw [List.mapM_cons] at h
        cases hitem : step item with
        | error fault =>
            rw [hitem, error_bind, Except.error.injEq] at h
            exact ⟨[], item, items, rfl, ⟨[], rfl⟩, h ▸ hitem⟩
        | ok value =>
            rw [hitem, ok_bind] at h
            have hitems : items.mapM step = .error cause := by
              cases hvalues : items.mapM step with
              | error fault => rwa [hvalues] at h
              | ok values => rw [hvalues] at h; cases h
            obtain ⟨before, failed, after, rfl, ⟨values, hvalues⟩, hfailed⟩ := ih hitems
            refine ⟨item :: before, failed, after, rfl, ⟨value :: values, ?_⟩, hfailed⟩
            rw [List.mapM_cons, hitem, ok_bind, hvalues]
            rfl
  · rintro ⟨before, item, after, rfl, ⟨values, hbefore⟩, hitem⟩
    exact mapM_append_cons_eq_error hbefore hitem

/-! ## Steps that are logged -/

namespace Logged

@[simp] theorem outcome_ofExcept (outcome : Except ε α) : (ofExcept outcome).outcome = outcome :=
  rfl

@[simp] theorem outcome_log (events : List Event) :
    (log events : Logged ε Unit).outcome = .ok () := rfl

@[simp] theorem outcome_pure (value : α) : (pure value : Logged ε α).outcome = .ok value := rfl

@[simp] theorem outcome_mapError (explain : ε → ε') (work : Logged ε α) :
    (work.mapError explain).outcome = work.outcome.mapError explain := rfl

@[simp] theorem outcome_bind (work : Logged ε α) (next : α → Logged ε β) :
    (work >>= next).outcome = work.outcome >>= fun value => (next value).outcome := by
  show (andThen work next).outcome = _
  unfold andThen
  cases work.outcome <;> rfl

end Logged

end CallRedirect
