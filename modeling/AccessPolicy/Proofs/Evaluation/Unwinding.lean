import AccessPolicy.Ending
import AccessPolicy.Evaluation.Basic

namespace AccessPolicy

namespace Evaluation

variable {R X σ : Type}

/-- Whatever comes of the computation, the chain is afterwards what it was before. -/
def KeepsChain (x : EStateM ε (Evaluation R X σ) α) : Prop :=
  ∀ s, (endState (x s)).chain = s.chain

theorem keepsChain_pure (a : α) : KeepsChain (pure a : EStateM ε (Evaluation R X σ) α) :=
  fun _ => rfl

theorem KeepsChain.bind {x : EStateM ε (Evaluation R X σ) α}
    {f : α → EStateM ε (Evaluation R X σ) β} (hx : KeepsChain x) (hf : ∀ a, KeepsChain (f a)) :
    KeepsChain (x >>= f) := by
  intro s
  have hfirst := hx s
  simp only [Bind.bind, EStateM.bind]
  cases hxs : x s with
  | error e t =>
    rw [hxs] at hfirst
    exact hfirst
  | ok a t =>
    rw [hxs] at hfirst
    exact (hf a t).trans hfirst

theorem keepsChain_act (f : ε → EvaluationError) (x : EStateM ε (World R X σ) α) :
    KeepsChain (act f x) := by
  intro s
  simp only [act]
  cases x s.world <;> rfl

theorem keepsChain_ask (x : EStateM EvaluationError σ α) :
    KeepsChain (ask (R := R) (X := X) x) :=
  keepsChain_act _ _

/-- Entering and leaving cancel each other, so only the body matters. -/
theorem KeepsChain.within {body : EStateM EvaluationError (Evaluation R X σ) α} (k : ArtifactKey)
    (h : KeepsChain body) : KeepsChain (within k body) := by
  intro s
  simp only [Evaluation.within]
  cases henter : s.chain.enter k with
  | error e => rfl
  | ok chain =>
    have hbody := h { s with chain }
    dsimp only at hbody ⊢
    cases hrun : body { s with chain } <;> rw [hrun] at hbody <;>
      exact (congrArg EvaluationChain.leave hbody).trans (EvaluationChain.leave_of_enter henter)

end Evaluation

open Evaluation

variable {R X σ : Type} [DecidableEq R] {sur : Surroundings R X σ} {ev : Evaluator σ}

section

variable {source : Option (Source R)}
  {visit : Artifact R X → EStateM EvaluationError (Evaluation R X σ) Decision}

mutual

theorem keepsChain_evaluateSet (hvisit : ∀ a, KeepsChain (visit a)) :
    (s : PolicySet) → KeepsChain (evaluateSet sur ev source visit s)
  | ⟨_, _, algorithm, _, _, target, content, _⟩ => by
    rw [evaluateSet]
    refine (keepsChain_ask _).bind fun applies => ?_
    cases applies
    · exact keepsChain_pure _
    · exact (keepsChain_evaluateMembers hvisit content).bind fun _ => keepsChain_ask _

theorem keepsChain_evaluateMembers (hvisit : ∀ a, KeepsChain (visit a)) :
    (ms : List (SetMember PolicySet)) → KeepsChain (evaluateMembers sur ev source visit ms)
  | [] => keepsChain_pure _
  | .policy _ :: rest =>
    (keepsChain_ask _).bind fun _ =>
      (keepsChain_evaluateMembers hvisit rest).bind fun _ => keepsChain_pure _
  | .policySet s :: rest =>
    (keepsChain_evaluateSet hvisit s).bind fun _ =>
      (keepsChain_evaluateMembers hvisit rest).bind fun _ => keepsChain_pure _
  | .reference _ _ :: rest =>
    (keepsChain_act _ _).bind fun a => (hvisit a).bind fun _ =>
      (keepsChain_evaluateMembers hvisit rest).bind fun _ => keepsChain_pure _
  | .parameters _ :: rest => keepsChain_evaluateMembers hvisit rest
  | .policyParameters _ :: rest => keepsChain_evaluateMembers hvisit rest
  | .setParameters _ :: rest => keepsChain_evaluateMembers hvisit rest

end

end

theorem keepsChain_evaluateWithin (room : Nat) (a : Artifact R X) :
    KeepsChain (evaluateWithin sur ev room a) := by
  induction room generalizing a with
  | zero =>
    cases a with
    | external d x => exact keepsChain_ask _
    | standard d source => exact KeepsChain.within _ fun _ => rfl
  | succ room ih =>
    cases a with
    | external d x => exact keepsChain_ask _
    | standard d source =>
      refine KeepsChain.within _ ?_
      cases d with
      | policy p => exact keepsChain_ask _
      | policySet s => exact keepsChain_evaluateSet ih s

/-- On return from an evaluation, with a decision or an error from any depth, the chain is what it
was at the call. -/
theorem keepsChain_evaluateIn (a : Artifact R X) : KeepsChain (evaluateIn sur ev a) :=
  fun s => keepsChain_evaluateWithin s.chain.room a s

end AccessPolicy
