import AccessPolicy.Evaluation.Chain
import AccessPolicy.Resolution

namespace AccessPolicy

/-- The state of an evaluation that is under way. -/
structure Evaluation (R X σ : Type) where
  chain : EvaluationChain
  world : World R X σ

namespace Evaluation

variable {R X σ : Type}

/-- Runs what does not concern the chain. -/
def act (f : ε → EvaluationError) (x : EStateM ε (World R X σ) α) :
    EStateM EvaluationError (Evaluation R X σ) α := fun s =>
  match x s.world with
  | .ok a w => .ok a { s with world := w }
  | .error e w => .error (f e) { s with world := w }

/-- Runs what concerns only the state outside. -/
def ask (x : EStateM EvaluationError σ α) : EStateM EvaluationError (Evaluation R X σ) α :=
  act (fun e => e) (World.ask x)

/-- Runs `body` with the artifact on the chain. Afterwards it is off the chain, whatever comes of
`body`. -/
def within (k : ArtifactKey) (body : EStateM EvaluationError (Evaluation R X σ) α) :
    EStateM EvaluationError (Evaluation R X σ) α := fun s =>
  match s.chain.enter k with
  | .error e => .error (.resolution e) s
  | .ok chain =>
    match body { s with chain } with
    | .ok a s => .ok a { s with chain := s.chain.leave }
    | .error e s => .error e { s with chain := s.chain.leave }

end Evaluation

section

open Evaluation

variable {R X σ : Type} [DecidableEq R]

mutual

/-- Evaluates a set that stands in a document with the given source; `visit` evaluates the artifacts
that it refers to. A set asks first whether its target applies, then goes through its members in
document order, and last combines their decisions. -/
def evaluateSet (sur : Surroundings R X σ) (ev : Evaluator σ) (source : Option (Source R))
    (visit : Artifact R X → EStateM EvaluationError (Evaluation R X σ) Decision) :
    PolicySet → EStateM EvaluationError (Evaluation R X σ) Decision
  | ⟨_, _, algorithm, _, _, target, content, _⟩ => do
    if ← ask (ev.applies target) then
      let decisions ← evaluateMembers sur ev source visit content
      ask (ev.combine algorithm decisions)
    else
      return .notApplicable

/-- The decisions of the members in order. Parameters make no decision. -/
def evaluateMembers (sur : Surroundings R X σ) (ev : Evaluator σ) (source : Option (Source R))
    (visit : Artifact R X → EStateM EvaluationError (Evaluation R X σ) Decision) :
    List (SetMember PolicySet) → EStateM EvaluationError (Evaluation R X σ) (List Decision)
  | [] => return []
  | .policy p :: rest => do
    let d ← ask (ev.policy p)
    let ds ← evaluateMembers sur ev source visit rest
    return d :: ds
  | .policySet s :: rest => do
    let d ← evaluateSet sur ev source visit s
    let ds ← evaluateMembers sur ev source visit rest
    return d :: ds
  | .reference kind r :: rest => do
    let a ← act .resolution (resolve sur source ⟨kind, r⟩)
    let d ← visit a
    let ds ← evaluateMembers sur ev source visit rest
    return d :: ds
  | .parameters _ :: rest => evaluateMembers sur ev source visit rest
  | .policyParameters _ :: rest => evaluateMembers sur ev source visit rest
  | .setParameters _ :: rest => evaluateMembers sur ev source visit rest

end

/-- Evaluates an artifact on a chain with room for as many artifacts as the number says. Where there
is no room, entering fails and nothing else is done. -/
def evaluateWithin (sur : Surroundings R X σ) (ev : Evaluator σ) :
    Nat → Artifact R X → EStateM EvaluationError (Evaluation R X σ) Decision
  | _, .external d x => ask (sur.decide x d ev)
  | 0, .standard d source =>
    within (Artifact.standard (X := X) d source).key
      (throw (.resolution (.tooDeep d.id EvaluationChain.limit)))
  | room + 1, .standard d source =>
    within (Artifact.standard (X := X) d source).key <|
      match d with
      | .policy p => ask (ev.policy p)
      | .policySet s => evaluateSet sur ev source (evaluateWithin sur ev room) s

/-- Evaluates an artifact as a part of the evaluation whose chain is given by the state. An artifact
from elsewhere takes no note of the chain. -/
def evaluateIn (sur : Surroundings R X σ) (ev : Evaluator σ) (a : Artifact R X) :
    EStateM EvaluationError (Evaluation R X σ) Decision := fun s =>
  evaluateWithin sur ev s.chain.room a s

/-- Evaluates an artifact by itself. -/
def evaluate (sur : Surroundings R X σ) (ev : Evaluator σ) (a : Artifact R X) :
    EStateM EvaluationError (World R X σ) Decision := fun w =>
  match evaluateIn sur ev a ⟨.empty, w⟩ with
  | .ok d s => .ok d s.world
  | .error e s => .error e s.world

end

end AccessPolicy
