import AccessPolicy.Proofs.Evaluation.History
import AccessPolicy.Proofs.Evaluation.Simulation
import AccessPolicy.Proofs.Resolution.Fetching

namespace AccessPolicy

section

variable {R X σ : Type}

mutual

/-- Evaluates a set that stands in a document with the given resolver; `visit` evaluates the
artifacts that it refers to. -/
def evaluateSetAfresh (sur : Surroundings R X σ) (ev : Evaluator σ) (resolver : Option R)
    (visit : Artifact R X → EStateM EvaluationError σ Decision) :
    PolicySet → EStateM EvaluationError σ Decision
  | ⟨_, _, algorithm, _, _, target, content, _⟩ => do
    if ← ev.applies target then
      let decisions ← evaluateMembersAfresh sur ev resolver visit content
      ev.combine algorithm decisions
    else
      return .notApplicable

def evaluateMembersAfresh (sur : Surroundings R X σ) (ev : Evaluator σ) (resolver : Option R)
    (visit : Artifact R X → EStateM EvaluationError σ Decision) :
    List (SetMember PolicySet) → EStateM EvaluationError σ (List Decision)
  | [] => return []
  | .policy p :: rest => do
    let d ← ev.policy p
    let ds ← evaluateMembersAfresh sur ev resolver visit rest
    return d :: ds
  | .policySet s :: rest => do
    let d ← evaluateSetAfresh sur ev resolver visit s
    let ds ← evaluateMembersAfresh sur ev resolver visit rest
    return d :: ds
  | .reference kind r :: rest => do
    let a ← (fetch sur resolver ⟨kind, r⟩).adaptExcept .resolution
    let d ← visit a
    let ds ← evaluateMembersAfresh sur ev resolver visit rest
    return d :: ds
  | .parameters _ :: rest => evaluateMembersAfresh sur ev resolver visit rest
  | .policyParameters _ :: rest => evaluateMembersAfresh sur ev resolver visit rest
  | .setParameters _ :: rest => evaluateMembersAfresh sur ev resolver visit rest

end

/-- Evaluates an artifact inside those that are on the chain, which has the given room. -/
def evaluateWithinAfresh (sur : Surroundings R X σ) (ev : Evaluator σ) :
    Nat → EvaluationChain → Artifact R X → EStateM EvaluationError σ Decision
  | _, _, .external d x => sur.decide x d ev
  | 0, c, .standard d source =>
    match c.enter (Artifact.standard (X := X) d source).key with
    | .error e => throw (.resolution e)
    | .ok _ => throw (.resolution (.tooDeep d.id EvaluationChain.limit))
  | room + 1, c, .standard d source =>
    match c.enter (Artifact.standard (X := X) d source).key with
    | .error e => throw (.resolution e)
    | .ok inner =>
      match d with
      | .policy p => ev.policy p
      | .policySet s =>
        evaluateSetAfresh sur ev (source.map Source.resolver) (evaluateWithinAfresh sur ev room inner) s

/-- Evaluates an artifact by itself. -/
def evaluateAfresh (sur : Surroundings R X σ) (ev : Evaluator σ) (a : Artifact R X) :
    EStateM EvaluationError σ Decision :=
  evaluateWithinAfresh sur ev EvaluationChain.limit .empty a

/-- Two sources of one resolver are the same to who remembers nothing. -/
theorem evaluateAfresh_congr (sur : Surroundings R X σ) (ev : Evaluator σ) (d : PolicyDocument)
    {s t : Option (Source R)} (h : s.map Source.resolver = t.map Source.resolver) :
    evaluateAfresh sur ev (.standard d s) = evaluateAfresh sur ev (.standard d t) := by
  have hkey : (Artifact.standard (X := X) d s).key = (Artifact.standard (X := X) d t).key := rfl
  simp only [evaluateAfresh, EvaluationChain.limit, evaluateWithinAfresh, hkey, h]

end

open Evaluation

variable {R X σ : Type} [DecidableEq R]

/-- The state is on the chain, remembers only answers and has the given state outside. -/
structure Tracks (answers : Answers R X) (c : EvaluationChain) (s : Evaluation R X σ)
    (outside : σ) : Prop where
  chain : s.chain = c
  faithful : s.world.Faithful answers
  outside : s.world.outside = outside

/-- On the chain, the first computation ends like the second, which has only the state outside. -/
def Mirrors (answers : Answers R X) (c : EvaluationChain)
    (x : EStateM EvaluationError (Evaluation R X σ) α) (y : EStateM EvaluationError σ α) : Prop :=
  EndsAlike (Tracks answers c) x y

namespace Mirrors

variable {answers : Answers R X} {c : EvaluationChain} {sur : Surroundings R X σ}
  {ev : Evaluator σ}

theorem pure (a : α) :
    Mirrors (σ := σ) answers c (Pure.pure a) (Pure.pure a) :=
  EndsAlike.pure a

theorem bind {x : EStateM EvaluationError (Evaluation R X σ) α} {y : EStateM EvaluationError σ α}
    {f : α → EStateM EvaluationError (Evaluation R X σ) β} {g : α → EStateM EvaluationError σ β}
    (h : Mirrors answers c x y) (hnext : ∀ a, Mirrors answers c (f a) (g a)) :
    Mirrors answers c (x >>= f) (y >>= g) :=
  EndsAlike.bind h hnext

theorem ask (x : EStateM EvaluationError σ α) : Mirrors answers c (Evaluation.ask x) x := by
  intro s outside hs
  obtain ⟨hchain, hfaithful, rfl⟩ := hs
  simp only [Evaluation.ask, act, World.ask]
  cases x s.world.outside with
  | ok a o => exact .ok ⟨hchain, hfaithful, rfl⟩
  | error e o => exact .error ⟨hchain, hfaithful, rfl⟩

/-- A reference that is remembered is what its resolver would answer. -/
theorem resolve (hgive : sur.Give answers) (source : Option (Source R)) (r : Reference) :
    Mirrors answers c (act .resolution (AccessPolicy.resolve sur source r))
      ((fetch sur (source.map Source.resolver) r).adaptExcept .resolution) := by
  intro s outside hs
  obtain ⟨hchain, hfaithful, rfl⟩ := hs
  obtain ⟨w, hw, houtside, hresolve⟩ := resolve_eq_meaning hgive hfaithful source r
  have hfetch := fetch_eq_meaning hgive source r s.world.outside
  simp only [act, EStateM.adaptExcept, hresolve, hfetch]
  cases answers.meaning source r with
  | ok a => exact .ok ⟨hchain, hw, houtside⟩
  | error e => exact .error ⟨hchain, hw, houtside⟩

/-- Entering and leaving an artifact is having it on the chain meanwhile. -/
theorem within {k : ArtifactKey} {x : EStateM EvaluationError (Evaluation R X σ) α}
    {y : EvaluationChain → EStateM EvaluationError σ α}
    (h : ∀ inner, c.enter k = .ok inner → Mirrors answers inner x (y inner)) :
    Mirrors answers c (within k x) (match c.enter k with
      | .error e => throw (.resolution e)
      | .ok inner => y inner) := by
  intro s outside hs
  obtain ⟨rfl, hfaithful, rfl⟩ := hs
  simp only [Evaluation.within]
  cases henter : s.chain.enter k with
  | error e => exact .error ⟨rfl, hfaithful, rfl⟩
  | ok inner =>
    have hleave := EvaluationChain.leave_of_enter henter
    have hbody := h inner henter { s with chain := inner } s.world.outside ⟨rfl, hfaithful, rfl⟩
    -- However the body ends, the chain is put back to what it was on entry.
    dsimp only
    cases hx : x { s with chain := inner } <;> cases hy : y inner s.world.outside <;>
      rw [hx, hy] at hbody <;> cases hbody
    · next hend => exact .ok ⟨by rw [hend.chain, hleave], hend.faithful, hend.outside⟩
    · next hend => exact .error ⟨by rw [hend.chain, hleave], hend.faithful, hend.outside⟩

section

variable {source : Option (Source R)}
  {visit : Artifact R X → EStateM EvaluationError (Evaluation R X σ) Decision}
  {visit' : Artifact R X → EStateM EvaluationError σ Decision}

mutual

theorem set (hgive : sur.Give answers) (hvisit : ∀ a, Mirrors answers c (visit a) (visit' a)) :
    (s : PolicySet) → Mirrors answers c (evaluateSet sur ev source visit s)
      (evaluateSetAfresh sur ev (source.map Source.resolver) visit' s)
  | ⟨_, _, algorithm, _, _, target, content, _⟩ => by
    rw [evaluateSet, evaluateSetAfresh]
    refine (ask _).bind fun applies => ?_
    cases applies with
    | false => exact pure _
    | true => exact (members hgive hvisit content).bind fun ds => ask _

theorem members (hgive : sur.Give answers) (hvisit : ∀ a, Mirrors answers c (visit a) (visit' a)) :
    (ms : List (SetMember PolicySet)) → Mirrors answers c (evaluateMembers sur ev source visit ms)
      (evaluateMembersAfresh sur ev (source.map Source.resolver) visit' ms)
  | [] => pure _
  | .policy _ :: rest =>
    (ask _).bind fun _ => (members hgive hvisit rest).bind fun _ => pure _
  | .policySet s :: rest =>
    (set hgive hvisit s).bind fun _ => (members hgive hvisit rest).bind fun _ => pure _
  | .reference kind r :: rest =>
    (resolve hgive source ⟨kind, r⟩).bind fun a =>
      (hvisit a).bind fun _ => (members hgive hvisit rest).bind fun _ => pure _
  | .parameters _ :: rest => members hgive hvisit rest
  | .policyParameters _ :: rest => members hgive hvisit rest
  | .setParameters _ :: rest => members hgive hvisit rest

end

end

end Mirrors

variable {answers : Answers R X} {sur : Surroundings R X σ} {ev : Evaluator σ}

/-- The induction is on the room, which is the same on both sides; the chain is given to the one
side and is part of the state of the other. -/
theorem mirrors_evaluateWithin (hgive : sur.Give answers) (room : Nat) (c : EvaluationChain)
    (a : Artifact R X) :
    Mirrors answers c (evaluateWithin sur ev room a) (evaluateWithinAfresh sur ev room c a) := by
  induction room generalizing c a with
  | zero =>
    cases a with
    | external d x => exact Mirrors.ask _
    | standard d source =>
      refine Mirrors.within fun inner _ => ?_
      intro s outside hs
      exact .error hs
  | succ room ih =>
    cases a with
    | external d x => exact Mirrors.ask _
    | standard d source =>
      refine Mirrors.within fun inner _ => ?_
      cases d with
      | policy _ => exact Mirrors.ask _
      | policySet s => exact Mirrors.set hgive (fun b => ih inner b) s

/-- Evaluating an artifact while only answers are remembered ends like evaluating it afresh. -/
theorem evaluate_endAlike_afresh (hgive : sur.Give answers) {w : World R X σ}
    (hw : w.Faithful answers) (a : Artifact R X) :
    EndAlike (fun v outside => v.outside = outside) (evaluate sur ev a w)
      (evaluateAfresh sur ev a w.outside) := by
  have hend : EndAlike (Tracks answers .empty)
      (evaluateWithin sur ev EvaluationChain.limit a ⟨.empty, w⟩)
      (evaluateAfresh sur ev a w.outside) :=
    mirrors_evaluateWithin hgive EvaluationChain.limit .empty a _ _ ⟨rfl, hw, rfl⟩
  have hroom : EvaluationChain.empty.room = EvaluationChain.limit := rfl
  simp only [evaluate, evaluateIn, hroom]
  cases hrun : evaluateWithin sur ev EvaluationChain.limit a ⟨.empty, w⟩ <;>
    cases hafresh : evaluateAfresh sur ev a w.outside <;> rw [hrun, hafresh] at hend <;> cases hend
  · next h => exact .ok h.outside
  · next h => exact .error h.outside

end AccessPolicy
