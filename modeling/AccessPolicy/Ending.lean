namespace AccessPolicy

/-- The value or the error that a computation ends with. -/
def answerOf : EStateM.Result ε τ α → Except ε α
  | .ok a _ => .ok a
  | .error e _ => .error e

/-- The state in which a computation ends, with a value or with an error. -/
def endState : EStateM.Result ε τ α → τ
  | .ok _ s => s
  | .error _ s => s

/-- Changes the state that a computation ends in. -/
def mapEnd (f : τ → υ) : EStateM.Result ε τ α → EStateM.Result ε υ α
  | .ok a s => .ok a (f s)
  | .error e s => .error e (f s)

@[simp]
theorem endState_mapEnd (f : τ → υ) (r : EStateM.Result ε τ α) :
    endState (mapEnd f r) = f (endState r) := by
  cases r <;> rfl

theorem answerOf_adaptExcept (f : ε → δ) (x : EStateM ε σ α) (s : σ) :
    answerOf (x.adaptExcept f s) = (answerOf (x s)).mapError f := by
  unfold EStateM.adaptExcept
  cases x s <;> rfl

theorem endState_adaptExcept (f : ε → δ) (x : EStateM ε σ α) (s : σ) :
    endState (x.adaptExcept f s) = endState (x s) := by
  unfold EStateM.adaptExcept
  cases x s <;> rfl

theorem adaptExcept_mapEnd {f : ε → δ} {g : σ → τ} {x : EStateM ε τ α} {y : EStateM ε σ α} {s : σ}
    {t : τ} (h : x t = mapEnd g (y s)) : x.adaptExcept f t = mapEnd g (y.adaptExcept f s) := by
  unfold EStateM.adaptExcept
  rw [h]
  cases y s <;> rfl

end AccessPolicy
