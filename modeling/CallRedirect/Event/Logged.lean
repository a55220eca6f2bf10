import CallRedirect.Event

/-!
# Work that is logged

Work that is logged leaves events behind whether it succeeds or fails.  Steps
are put together in order; after a failure no further step is taken, and the
events of the steps before it stay.
-/

namespace CallRedirect

/-- The outcome of some work, with the events on the way. -/
structure Logged (ε α : Type) where
  events : List Event
  outcome : Except ε α

namespace Logged

variable {ε α β : Type}

/-- Work that leaves no event. -/
def ofExcept (outcome : Except ε α) : Logged ε α := ⟨[], outcome⟩

/-- Leave events and do nothing else. -/
def log (events : List Event) : Logged ε Unit := ⟨events, .ok ()⟩

/-- Take the next step after a success. -/
def andThen (work : Logged ε α) (next : α → Logged ε β) : Logged ε β :=
  match work.outcome with
  | .error e => ⟨work.events, .error e⟩
  | .ok a =>
    let rest := next a
    ⟨work.events ++ rest.events, rest.outcome⟩

instance : Monad (Logged ε) where
  pure a := ⟨[], .ok a⟩
  bind := andThen

/-- The work with its error explained otherwise. -/
def mapError {δ : Type} (explain : ε → δ) (work : Logged ε α) : Logged δ α :=
  ⟨work.events, work.outcome.mapError explain⟩

end Logged

end CallRedirect
