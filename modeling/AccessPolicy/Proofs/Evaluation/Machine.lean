import AccessPolicy.Evaluation.Basic
import Mathlib.Logic.Relation

namespace AccessPolicy

/-- How far the members of a set have been gone through. -/
structure Progress (R : Type) where
  /-- The source of the document that the set stands in. -/
  source : Option (Source R)
  algorithm : String
  /-- The decisions of the members before, in document order. -/
  decisions : List Decision
  rest : List (SetMember PolicySet)

/-- What is done next. -/
inductive Task (R X : Type) where
  | artifact (a : Artifact R X)
  | policy (p : Policy)
  | set (source : Option (Source R)) (s : PolicySet)
  | members (p : Progress R)
  | decided (d : Decision)
  | failed (e : EvaluationError)

/-- What waits for a decision. -/
inductive Pending (R X : Type) where
  /-- An artifact that is left once it is decided. -/
  | within (a : Artifact R X)
  /-- A set one of whose members is being decided; the progress is what comes after that member. -/
  | member (p : Progress R)

/-- A moment of an evaluation: what is to be done next, what is pending after that, and the state. -/
structure Moment (R X σ : Type) where
  task : Task R X
  pending : List (Pending R X)
  state : Evaluation R X σ

variable {R X σ : Type}

/-- The artifacts that are being evaluated, the innermost first. -/
def enclosing : List (Pending R X) → List (Artifact R X)
  | [] => []
  | .within a :: rest => a :: enclosing rest
  | .member _ :: rest => enclosing rest

namespace Moment

/-- The start of evaluating an artifact. -/
def start (a : Artifact R X) (s : Evaluation R X σ) : Moment R X σ :=
  ⟨.artifact a, [], s⟩

/-- After a computation: goes on with its value, or fails. -/
def after (pending : List (Pending R X)) (next : α → Task R X × List (Pending R X)) :
    EStateM.Result EvaluationError (Evaluation R X σ) α → Moment R X σ
  | .ok a s => ⟨(next a).1, (next a).2, s⟩
  | .error e s => ⟨.failed e, pending, s⟩

/-- After a computation that decides. -/
def settle (pending : List (Pending R X)) :
    EStateM.Result EvaluationError (Evaluation R X σ) Decision → Moment R X σ :=
  after pending fun d => (.decided d, pending)

/-- What does not concern the chain leaves it alone, and so it does the enclosing artifacts. -/
theorem after_act {pending : List (Pending R X)} {next : α → Task R X × List (Pending R X)}
    (h : ∀ a, enclosing (next a).2 = enclosing pending) (f : ε → EvaluationError)
    (x : EStateM ε (World R X σ) α) (s : Evaluation R X σ) :
    (after pending next (Evaluation.act f x s)).state.chain = s.chain ∧
      enclosing (after pending next (Evaluation.act f x s)).pending = enclosing pending := by
  simp only [Evaluation.act]
  cases x s.world with
  | ok a w => exact ⟨rfl, h a⟩
  | error e w => exact ⟨rfl, rfl⟩

end Moment

open Evaluation Moment

variable [DecidableEq R]

/-- Turns to a member of a set. -/
def stepMember (sur : Surroundings R X σ) (p : Progress R) (pending : List (Pending R X))
    (s : Evaluation R X σ) : SetMember PolicySet → Moment R X σ
  | .policy q => ⟨.policy q, .member p :: pending, s⟩
  | .policySet t => ⟨.set p.source t, .member p :: pending, s⟩
  | .reference kind r =>
    after pending (fun a => (.artifact a, .member p :: pending))
      (act .resolution (resolve sur p.source ⟨kind, r⟩) s)
  | .parameters _ => ⟨.members p, pending, s⟩
  | .policyParameters _ => ⟨.members p, pending, s⟩
  | .setParameters _ => ⟨.members p, pending, s⟩

/-- Enters a standard artifact. -/
def stepInto (d : PolicyDocument) (source : Option (Source R)) (pending : List (Pending R X))
    (s : Evaluation R X σ) : Moment R X σ :=
  match s.chain.enter (Artifact.standard (X := X) d source).key with
  | .error e => ⟨.failed (.resolution e), pending, s⟩
  | .ok chain =>
    match d with
    | .policy p => ⟨.policy p, .within (.standard d source) :: pending, { s with chain }⟩
    | .policySet t => ⟨.set source t, .within (.standard d source) :: pending, { s with chain }⟩

/-- Hands a decision or a failure on to what waits for it. -/
def stepBack (result : Except EvaluationError Decision) :
    List (Pending R X) → Evaluation R X σ → Option (Moment R X σ)
  | [], _ => none
  | .within _ :: pending, s =>
    let task := match result with
      | .ok d => .decided d
      | .error e => .failed e
    some ⟨task, pending, { s with chain := s.chain.leave }⟩
  | .member p :: pending, s =>
    let task := match result with
      | .ok d => .members { p with decisions := p.decisions ++ [d] }
      | .error e => .failed e
    some ⟨task, pending, s⟩

/-- The next moment, until a decision or a failure has been handed on to all that waits. -/
def step (sur : Surroundings R X σ) (ev : Evaluator σ) : Moment R X σ → Option (Moment R X σ)
  | ⟨.artifact (.external d x), pending, s⟩ => some (settle pending (ask (sur.decide x d ev) s))
  | ⟨.artifact (.standard d source), pending, s⟩ => some (stepInto d source pending s)
  | ⟨.policy p, pending, s⟩ => some (settle pending (ask (ev.policy p) s))
  | ⟨.set source t, pending, s⟩ =>
    let next applies :=
      if applies then (.members ⟨source, t.algorithm, [], t.content⟩, pending)
      else (.decided .notApplicable, pending)
    some (after pending next (ask (ev.applies t.target) s))
  | ⟨.members ⟨_, algorithm, decisions, []⟩, pending, s⟩ =>
    some (settle pending (ask (ev.combine algorithm decisions) s))
  | ⟨.members ⟨source, algorithm, decisions, m :: rest⟩, pending, s⟩ =>
    some (stepMember sur ⟨source, algorithm, decisions, rest⟩ pending s m)
  | ⟨.decided d, pending, s⟩ => stepBack (.ok d) pending s
  | ⟨.failed e, pending, s⟩ => stepBack (.error e) pending s

/-- One moment comes some steps after another. -/
def Reaches (sur : Surroundings R X σ) (ev : Evaluator σ) : Moment R X σ → Moment R X σ → Prop :=
  Relation.ReflTransGen fun m n => step sur ev m = some n

variable {sur : Surroundings R X σ} {ev : Evaluator σ}

theorem rightUnique_step :
    Relator.RightUnique fun m n : Moment R X σ => step sur ev m = some n :=
  fun _ _ _ h h' => Option.some.inj (h.symm.trans h')

/-- A moment that has come to its end is reached from every moment on the way. -/
theorem Reaches.last_of_last {m n last : Moment R X σ} (hlast : Reaches sur ev m last)
    (hend : step sur ev last = none) (h : Reaches sur ev m n) : Reaches sur ev n last := by
  obtain hafter | hbefore := Relation.ReflTransGen.total_of_right_unique rightUnique_step hlast h
  · obtain rfl | ⟨next, hnext, -⟩ := Relation.ReflTransGen.cases_head hafter
    · exact .refl
    · rw [hend] at hnext
      cases hnext
  · exact hbefore

/-- What a step does to the chain it does to the enclosing artifacts: nothing at all, or an artifact
is entered that the chain has a place for, or the innermost one is left. -/
theorem step_cases {m n : Moment R X σ} (h : step sur ev m = some n) :
    (n.state.chain = m.state.chain ∧ enclosing n.pending = enclosing m.pending) ∨
    (∃ a, m.task = .artifact a ∧ m.state.chain.enter a.key = .ok n.state.chain ∧
      n.pending = .within a :: m.pending) ∨
    (∃ a, m.pending = .within a :: n.pending ∧ n.state.chain = m.state.chain.leave) := by
  obtain ⟨task, pending, s⟩ := m
  cases task with
  | artifact a =>
    cases a with
    | external d x =>
      cases h
      exact .inl (after_act (by simp) _ _ s)
    | standard d source =>
      cases h
      simp only [stepInto]
      cases henter : s.chain.enter (Artifact.standard (X := X) d source).key with
      | error e => exact .inl ⟨rfl, rfl⟩
      | ok chain => cases d <;> exact .inr (.inl ⟨_, rfl, henter, rfl⟩)
  | policy p =>
    cases h
    exact .inl (after_act (by simp) _ _ s)
  | set source t =>
    cases h
    refine .inl (after_act (fun applies => ?_) _ _ s)
    cases applies <;> rfl
  | members p =>
    obtain ⟨source, algorithm, decisions, _ | ⟨m, rest⟩⟩ := p
    · cases h
      exact .inl (after_act (by simp) _ _ s)
    · cases h
      cases m with
      | reference kind r =>
        exact .inl (after_act (by simp [enclosing]) _ _ s)
      | _ => exact .inl ⟨rfl, rfl⟩
  | decided d =>
    obtain _ | ⟨_ | _, pending⟩ := pending <;> cases h
    · exact .inr (.inr ⟨_, rfl, rfl⟩)
    · exact .inl ⟨rfl, rfl⟩
  | failed e =>
    obtain _ | ⟨_ | _, pending⟩ := pending <;> cases h
    · exact .inr (.inr ⟨_, rfl, rfl⟩)
    · exact .inl ⟨rfl, rfl⟩

namespace EvaluationChain

/-- The path is within the limit and no artifact is on it twice. -/
structure Sound (c : EvaluationChain) : Prop where
  length_le : c.path.length ≤ limit
  nodup : c.path.Nodup

theorem Sound.enter {c d : EvaluationChain} {k : ArtifactKey} (hc : c.Sound)
    (h : c.enter k = .ok d) : d.Sound := by
  obtain ⟨hmem, hroom, rfl⟩ := enter_eq_ok_iff.1 h
  exact ⟨hroom, List.nodup_cons.2 ⟨hmem, hc.nodup⟩⟩

theorem Sound.leave {c : EvaluationChain} (hc : c.Sound) : c.leave.Sound :=
  ⟨Nat.le_trans (by simp [EvaluationChain.leave]) hc.length_le, hc.nodup.tail⟩

end EvaluationChain

theorem sound_of_step {m n : Moment R X σ} (hm : m.state.chain.Sound)
    (h : step sur ev m = some n) : n.state.chain.Sound := by
  obtain ⟨hsame, -⟩ | ⟨a, -, henter, -⟩ | ⟨a, -, hleave⟩ := step_cases h
  · exact hsame ▸ hm
  · exact hm.enter henter
  · exact hleave ▸ hm.leave

/-- At every moment of an evaluation the path is within the limit and repeats no artifact. -/
theorem Reaches.sound {m n : Moment R X σ} (h : Reaches sur ev m n)
    (hm : m.state.chain.Sound) : n.state.chain.Sound := by
  induction h with
  | refl => exact hm
  | tail _ hstep ih => exact sound_of_step ih hstep

/-- The path is that of the enclosing artifacts, on top of what was there before. -/
def PathIs (base : List ArtifactKey) (m : Moment R X σ) : Prop :=
  m.state.chain.path = (enclosing m.pending).map Artifact.key ++ base

theorem PathIs.step {base : List ArtifactKey} {m n : Moment R X σ} (hm : PathIs base m)
    (h : step sur ev m = some n) : PathIs base n := by
  unfold PathIs at hm ⊢
  obtain ⟨hchain, hpending⟩ | ⟨a, -, henter, hpending⟩ | ⟨a, hpending, hleave⟩ := step_cases h
  · rw [hchain, hpending, hm]
  · obtain ⟨-, -, hchain⟩ := EvaluationChain.enter_eq_ok_iff.1 henter
    rw [hchain, hpending, hm]
    rfl
  · rw [hleave, EvaluationChain.leave, hm, hpending]
    rfl

theorem Reaches.pathIs {base : List ArtifactKey} {m n : Moment R X σ} (h : Reaches sur ev m n)
    (hm : PathIs base m) : PathIs base n := by
  induction h with
  | refl => exact hm
  | tail _ hstep ih => exact ih.step hstep

/-- In an evaluation of its own, the chain is precisely that of the enclosing artifacts. -/
theorem Reaches.chain_eq {a : Artifact R X} {w : World R X σ} {m : Moment R X σ}
    (h : Reaches sur ev (start a ⟨.empty, w⟩) m) :
    m.state.chain = ⟨(enclosing m.pending).map Artifact.key⟩ := by
  have hpath : PathIs [] m := h.pathIs rfl
  rw [PathIs, List.append_nil] at hpath
  exact congrArg EvaluationChain.mk hpath

end AccessPolicy
