import AccessPolicy.Proofs.Evaluation.Visits

namespace AccessPolicy

open Evaluation Moment

/-- The call asks a resolver. -/
def Event.isLookUp {R X : Type} : Event R X → Bool
  | lookUp _ _ _ _ => true
  | _ => false

section

variable {R X σ E : Type}

/-- The moment with a journal that holds the events. -/
def Moment.journaled (events : List E) (m : Moment R X σ) : Moment R X (Journal E σ) :=
  ⟨m.task, m.pending, m.state.journaled events⟩

theorem journaled_nil_append (m : Moment R X σ) (before : List E) :
    m.journaled (before ++ []) = m.journaled before := by
  rw [List.append_nil]

theorem after_mapEnd (pending : List (Pending R X)) (next : α → Task R X × List (Pending R X))
    (events : List E) (r : EStateM.Result EvaluationError (Evaluation R X σ) α) :
    after pending next (mapEnd (Evaluation.journaled events) r) =
      (after pending next r).journaled events := by
  cases r <;> rfl

theorem settle_injective {r r' : EStateM.Result EvaluationError (Evaluation R X σ) Decision}
    (h : settle [] r = settle [] r') : r = r' := by
  cases r <;> cases r' <;> cases h <;> rfl

theorem journaled_settle (events : List E)
    (r : EStateM.Result EvaluationError (Evaluation R X σ) Decision) :
    (settle [] r).journaled events = settle [] (mapEnd (Evaluation.journaled events) r) := by
  cases r <;> rfl

/-- What is asked for outside is done and noted. -/
theorem after_ask_noting (pending : List (Pending R X))
    (next : α → Task R X × List (Pending R X)) (event : Except EvaluationError α → E)
    (x : EStateM EvaluationError σ α) (s : Evaluation R X σ) (before : List E) :
    after pending next (ask (Journal.noting event x) (s.journaled before)) =
      (after pending next (ask x s)).journaled
        (before ++ [event (answerOf (x s.world.outside))]) := by
  simp only [ask, act, World.ask, Evaluation.journaled, World.journaled, World.map, Journal.noting]
  cases x s.world.outside <;> rfl

end

variable {R X σ : Type} [DecidableEq R] {sur : Surroundings R X σ} {ev : Evaluator σ}

/-- Resolving notes the calls that are made on behalf of the reference. -/
theorem act_resolve_recorded (sur : Surroundings R X σ) (ev : Evaluator σ)
    (source : Option (Source R)) (r : Reference) (s : Evaluation R X σ)
    (before : List (Event R X)) :
    act .resolution (resolve (sur.recorded ev) source r) (s.journaled before) =
      mapEnd (Evaluation.journaled (before ++ callsFor sur source r s.world))
        (act .resolution (resolve sur source r) s) := by
  obtain ⟨-, hrun⟩ := resolve_recorded sur ev source r s.world
  have hworld : (s.journaled before).world = s.world.journaled before := rfl
  simp only [act, hworld, hrun]
  cases resolve sur source r s.world <;> rfl

theorem isLookUp_of_mem_callsFor {source : Option (Source R)} {r : Reference} {w : World R X σ}
    {event : Event R X} (h : event ∈ callsFor sur source r w) : event.isLookUp = true := by
  simp only [callsFor] at h
  split at h
  · cases h
  · simp only [lookUps] at h
    split at h
    · obtain rfl := List.mem_singleton.1 h
      rfl
    · cases h

/-- The events of a step are noted by the step with a journal, and its look-ups are those for the
reference that it turns to. -/
def StepNotes (sur : Surroundings R X σ) (ev : Evaluator σ) (m n : Moment R X σ)
    (events : List (Event R X)) : Prop :=
  (∀ before, step (sur.recorded ev) ev.recorded (m.journaled before) =
    some (n.journaled (before ++ events))) ∧
  events.filter Event.isLookUp = m.visit?.toList.flatMap (Visit.calls sur)

theorem StepNotes.nothing {m n : Moment R X σ}
    (h : ∀ before, step (sur.recorded ev) ev.recorded (m.journaled before) =
      some (n.journaled before)) (hvisit : m.visit? = none) : StepNotes sur ev m n [] :=
  ⟨fun before => by rw [journaled_nil_append, h], by rw [hvisit]; rfl⟩

theorem StepNotes.one {m n : Moment R X σ} {event : Event R X}
    (h : ∀ before, step (sur.recorded ev) ev.recorded (m.journaled before) =
      some (n.journaled (before ++ [event]))) (hevent : event.isLookUp = false)
    (hvisit : m.visit? = none) : StepNotes sur ev m n [event] := by
  refine ⟨h, ?_⟩
  rw [hvisit, List.filter_cons_of_neg (by simp [hevent])]
  rfl

theorem exists_stepNotes {m n : Moment R X σ} (h : step sur ev m = some n) :
    ∃ events, StepNotes sur ev m n events := by
  obtain ⟨task, pending, s⟩ := m
  cases task with
  | artifact a =>
    cases a with
    | external d x =>
      cases h
      exact ⟨[.foreign x d _],
        .one (fun before => congrArg some (after_ask_noting _ _ _ _ s before)) rfl rfl⟩
    | standard d source =>
      cases h
      refine ⟨[], .nothing (fun before => congrArg some ?_) rfl⟩
      have hchain : (s.journaled before).chain = s.chain := rfl
      simp only [stepInto, hchain]
      cases s.chain.enter (Artifact.standard (X := X) d source).key with
      | error e => rfl
      | ok chain => cases d <;> rfl
  | policy p =>
    cases h
    exact ⟨[.policy p _],
      .one (fun before => congrArg some (after_ask_noting _ _ _ _ s before)) rfl rfl⟩
  | set source t =>
    cases h
    exact ⟨[.applies t.target _],
      .one (fun before => congrArg some (after_ask_noting _ _ _ _ s before)) rfl rfl⟩
  | members p =>
    obtain ⟨source, algorithm, decisions, _ | ⟨x, rest⟩⟩ := p
    · cases h
      exact ⟨[.combine algorithm decisions _],
        .one (fun before => congrArg some (after_ask_noting _ _ _ _ s before)) rfl rfl⟩
    · cases h
      cases x with
      | reference kind r =>
        refine ⟨callsFor sur source ⟨kind, r⟩ s.world, fun before => ?_, ?_⟩
        · have hrun := act_resolve_recorded sur ev source ⟨kind, r⟩ s before
          exact congrArg some ((congrArg (after _ _) hrun).trans (after_mapEnd _ _ _ _))
        · rw [List.filter_eq_self.2 fun _ => isLookUp_of_mem_callsFor]
          exact (List.append_nil _).symm
      | _ => exact ⟨[], .nothing (fun _ => rfl) rfl⟩
  | decided d =>
    obtain _ | ⟨_ | _, pending⟩ := pending <;> cases h <;>
      exact ⟨[], .nothing (fun _ => rfl) rfl⟩
  | failed e =>
    obtain _ | ⟨_ | _, pending⟩ := pending <;> cases h <;>
      exact ⟨[], .nothing (fun _ => rfl) rfl⟩

/-- A run with a journal passes the same moments and notes the look-ups for the references that are
turned to, in this order. -/
theorem Run.exists_events {m last : Moment R X σ} {ms : List (Moment R X σ)}
    (h : Run sur ev m ms last) :
    ∃ events : List (Event R X),
      (∀ before, Reaches (sur.recorded ev) ev.recorded (m.journaled before)
        (last.journaled (before ++ events))) ∧
      events.filter Event.isLookUp = (ms.filterMap Moment.visit?).flatMap (Visit.calls sur) := by
  induction h with
  | @refl m =>
    refine ⟨[], fun before => ?_, rfl⟩
    rw [journaled_nil_append]
    exact .refl
  | @head m n _ ms hstep _ ih =>
    obtain ⟨events, hnotes, hlookUps⟩ := exists_stepNotes hstep
    obtain ⟨later, hreach, hlater⟩ := ih
    refine ⟨events ++ later, fun before => ?_, ?_⟩
    · rw [← List.append_assoc]
      exact .head (hnotes before) (hreach _)
    · rw [List.filter_append, hlookUps, hlater]
      cases hvisit : m.visit? with
      | none => rw [List.filterMap_cons_none hvisit]; rfl
      | some x => rw [List.filterMap_cons_some hvisit]; simp

/-- The calls of resolvers that an evaluation makes are those for the references that it turns to,
in the same order. -/
theorem lookUps_evaluateIn {a : Artifact R X} {s : Evaluation R X σ} {ms : List (Moment R X σ)}
    (h : Run sur ev (start a s) ms (settle [] (evaluateIn sur ev a s))) :
    ∃ events : List (Event R X),
      (∀ before, evaluateIn (sur.recorded ev) ev.recorded a (s.journaled before) =
        mapEnd (Evaluation.journaled (before ++ events)) (evaluateIn sur ev a s)) ∧
      events.filter Event.isLookUp = (ms.filterMap Moment.visit?).flatMap (Visit.calls sur) := by
  obtain ⟨events, hreach, hlookUps⟩ := h.exists_events
  refine ⟨events, fun before => settle_injective ?_, hlookUps⟩
  -- Both evaluations have come to their end, and from one moment there is one end only.
  have hend : Reaches (sur.recorded ev) ev.recorded (start a (s.journaled before)) _ :=
    hreach before
  have hrecorded : Reaches (sur.recorded ev) ev.recorded (start a (s.journaled before)) _ :=
    reaches_evaluateIn a (s.journaled before)
  rw [journaled_settle] at hend
  have hlast := hend.last_of_last (step_settle_nil _) hrecorded
  obtain hsame | ⟨next, hnext, -⟩ := Relation.ReflTransGen.cases_head hlast
  · exact hsame
  · rw [step_settle_nil] at hnext
    cases hnext

end AccessPolicy
