import AccessPolicy.Proofs.Evaluation.Termination

namespace AccessPolicy

open Evaluation Moment

variable {R X σ : Type}

/-- The reference that is turned to next, with the source of the document that it stands in. -/
def Task.reference? : Task R X → Option (Option (Source R) × Reference)
  | .members ⟨source, _, _, .reference kind r :: _⟩ => some (source, ⟨kind, r⟩)
  | _ => none

theorem world_after_act (pending : List (Pending R X))
    (next : α → Task R X × List (Pending R X)) (f : ε → EvaluationError)
    (x : EStateM ε (World R X σ) α) (s : Evaluation R X σ) :
    (after pending next (act f x s)).state.world = endState (x s.world) := by
  simp only [act]
  cases x s.world <;> rfl

theorem endState_ask (x : EStateM ε σ α) (w : World R X σ) :
    endState (World.ask x w) = { w with outside := endState (x w.outside) } := by
  simp only [World.ask]
  cases x w.outside <;> rfl

theorem world_after_ask (pending : List (Pending R X))
    (next : α → Task R X × List (Pending R X)) (x : EStateM EvaluationError σ α)
    (s : Evaluation R X σ) :
    ∃ outside, (after pending next (ask x s)).state.world = { s.world with outside } :=
  ⟨_, by rw [ask, world_after_act, endState_ask]⟩

variable [DecidableEq R] {sur : Surroundings R X σ} {ev : Evaluator σ}

/-- Turning to a reference resolves it and then comes to what it means. -/
theorem step_of_reference (sur : Surroundings R X σ) (ev : Evaluator σ) {m : Moment R X σ}
    {source : Option (Source R)} {r : Reference} (h : m.task.reference? = some (source, r)) :
    ∃ p, step sur ev m = some (after m.pending (fun a => (.artifact a, .member p :: m.pending))
      (act .resolution (resolve sur source r) m.state)) := by
  obtain ⟨task, pending, s⟩ := m
  simp only [Task.reference?] at h
  split at h
  · next _ algorithm decisions kind target rest =>
    cases h
    exact ⟨⟨source, algorithm, decisions, rest⟩, rfl⟩
  · cases h

/-- A step resolves the reference that it turns to, and without one leaves all but the state outside
as it was. -/
theorem world_step_cases {m n : Moment R X σ} (h : step sur ev m = some n) :
    (∃ source r, m.task.reference? = some (source, r) ∧
      n.state.world = endState (resolve sur source r m.state.world)) ∨
    (m.task.reference? = none ∧ ∃ outside, n.state.world = { m.state.world with outside }) := by
  cases hreference : m.task.reference? with
  | some sr =>
    obtain ⟨p, hstep⟩ := step_of_reference sur ev hreference
    obtain rfl := Option.some.inj (hstep.symm.trans h)
    exact .inl ⟨_, _, rfl, world_after_act _ _ _ _ _⟩
  | none =>
    refine .inr ⟨rfl, ?_⟩
    obtain ⟨task, pending, s⟩ := m
    cases task with
    | artifact a =>
      cases a with
      | external d x => cases h; exact world_after_ask _ _ _ _
      | standard d source =>
        cases h
        simp only [stepInto]
        cases s.chain.enter (Artifact.standard (X := X) d source).key with
        | error e => exact ⟨_, rfl⟩
        | ok chain => cases d <;> exact ⟨_, rfl⟩
    | policy p => cases h; exact world_after_ask _ _ _ _
    | set source t => cases h; exact world_after_ask _ _ _ _
    | members p =>
      obtain ⟨source, algorithm, decisions, _ | ⟨x, rest⟩⟩ := p
      · cases h; exact world_after_ask _ _ _ _
      · cases h
        cases x with
        | reference kind r => cases hreference
        | _ => exact ⟨_, rfl⟩
    | decided d => obtain _ | ⟨_ | _, pending⟩ := pending <;> cases h <;> exact ⟨_, rfl⟩
    | failed e => obtain _ | ⟨_ | _, pending⟩ := pending <;> cases h <;> exact ⟨_, rfl⟩

/-- The moments that are passed on the way from one moment to another, which is not among them. -/
inductive Run (sur : Surroundings R X σ) (ev : Evaluator σ) :
    Moment R X σ → List (Moment R X σ) → Moment R X σ → Prop
  | refl {m : Moment R X σ} : Run sur ev m [] m
  | head {m n last : Moment R X σ} {ms : List (Moment R X σ)} (hstep : step sur ev m = some n)
      (hrest : Run sur ev n ms last) : Run sur ev m (m :: ms) last

namespace Run

variable {m last : Moment R X σ} {ms ns : List (Moment R X σ)}

theorem exists_of_reaches (h : Reaches sur ev m last) : ∃ ms, Run sur ev m ms last := by
  induction h using Relation.ReflTransGen.head_induction_on with
  | refl => exact ⟨[], .refl⟩
  | head hstep _ ih =>
    obtain ⟨ms, hrest⟩ := ih
    exact ⟨_, .head hstep hrest⟩

/-- To a moment that nothing comes after there is one run at most. -/
theorem unique (hend : step sur ev last = none) (h : Run sur ev m ms last)
    (h' : Run sur ev m ns last) : ms = ns := by
  induction h generalizing ns with
  | refl =>
    cases h' with
    | refl => rfl
    | head hstep _ => cases hend.symm.trans hstep
  | head hstep _ ih =>
    cases h' with
    | refl => cases hend.symm.trans hstep
    | head hstep' hrest =>
      cases hstep.symm.trans hstep'
      rw [ih hend hrest]

/-- What every step keeps holds of all moments of a run. -/
theorem invariant {P : Moment R X σ → Prop} (hkeeps : ∀ m n, P m → step sur ev m = some n → P n)
    (h : Run sur ev m ms last) (hm : P m) : (∀ n ∈ ms, P n) ∧ P last := by
  induction h with
  | refl => exact ⟨List.forall_mem_nil _, hm⟩
  | head hstep _ ih =>
    obtain ⟨hms, hlast⟩ := ih (hkeeps _ _ hm hstep)
    exact ⟨List.forall_mem_cons.2 ⟨hm, hms⟩, hlast⟩

end Run

/-- Every evaluation passes through one list of moments. -/
theorem exists_run_evaluateIn (sur : Surroundings R X σ) (ev : Evaluator σ) (a : Artifact R X)
    (s : Evaluation R X σ) :
    ∃ ms, Run sur ev (start a s) ms (settle [] (evaluateIn sur ev a s)) :=
  Run.exists_of_reaches (reaches_evaluateIn a s)

end AccessPolicy
