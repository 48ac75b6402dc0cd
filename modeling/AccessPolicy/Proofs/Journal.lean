import AccessPolicy.Ending
import AccessPolicy.Resolution

namespace AccessPolicy

/-- A state with the events that have been noted, the earliest first. -/
structure Journal (E σ : Type) where
  events : List E
  state : σ

/-- Leaves the work to `x` and notes an event, which may tell what `x` answered. -/
def Journal.noting (event : Except ε α → E) (x : EStateM ε σ α) : EStateM ε (Journal E σ) α :=
  fun j => mapEnd (Journal.mk (j.events ++ [event (answerOf (x j.state))])) (x j.state)

namespace World

variable {R X σ τ E : Type}

/-- Changes the state outside. -/
def map (f : σ → τ) (w : World R X σ) : World R X τ :=
  ⟨w.remembered, w.nextCache, f w.outside⟩

/-- The world with a journal that holds the events. -/
def journaled (events : List E) (w : World R X σ) : World R X (Journal E σ) :=
  w.map (Journal.mk events)

end World

end AccessPolicy
