import AccessPolicy.Evaluation.Basic
import AccessPolicy.Proofs.Resolution.Pure

namespace AccessPolicy

/-- With the same value or the same error, in related states. -/
inductive EndAlike (P : τ → υ → Prop) : EStateM.Result ε τ α → EStateM.Result ε υ α → Prop
  | ok {a : α} {s : τ} {t : υ} (h : P s t) : EndAlike P (.ok a s) (.ok a t)
  | error {e : ε} {s : τ} {t : υ} (h : P s t) : EndAlike P (.error e s) (.error e t)

/-- From related states both computations end alike. -/
def EndsAlike (P : τ → υ → Prop) (x : EStateM ε τ α) (y : EStateM ε υ α) : Prop :=
  ∀ s t, P s t → EndAlike P (x s) (y t)

namespace EndsAlike

variable {P : τ → υ → Prop}

theorem pure (a : α) : EndsAlike P (Pure.pure a : EStateM ε τ α) (Pure.pure a) :=
  fun _ _ h => .ok h

theorem bind {x : EStateM ε τ α} {y : EStateM ε υ α} {f : α → EStateM ε τ β}
    {g : α → EStateM ε υ β} (h : EndsAlike P x y) (hnext : ∀ a, EndsAlike P (f a) (g a)) :
    EndsAlike P (x >>= f) (y >>= g) := by
  intro s t hst
  have hfirst := h s t hst
  simp only [Bind.bind, EStateM.bind]
  cases hx : x s <;> cases hy : y t <;> rw [hx, hy] at hfirst <;> cases hfirst
  · next hst' => exact hnext _ _ _ hst'
  · next hst' => exact .error hst'

end EndsAlike

variable {R X σ : Type} [DecidableEq R]

/-- The states outside are the same; the first state has the chain and remembers only answers. -/
structure Alike (answers : Answers R X) (c : EvaluationChain) (s t : Evaluation R X σ) : Prop where
  chain : s.chain = c
  faithful : s.world.Faithful answers
  outside : s.world.outside = t.world.outside

/-- From states that are alike both computations end alike. -/
def Simulates (answers : Answers R X) (c : EvaluationChain)
    (x y : EStateM EvaluationError (Evaluation R X σ) α) : Prop :=
  ∀ s t, Alike answers c s t → EndAlike (Alike answers c) (x s) (y t)

namespace Simulates

open Evaluation

variable {answers : Answers R X} {c : EvaluationChain}

theorem pure (a : α) :
    Simulates answers c (Pure.pure a : EStateM EvaluationError (Evaluation R X σ) α) (Pure.pure a) :=
  EndsAlike.pure a

theorem bind {x y : EStateM EvaluationError (Evaluation R X σ) α}
    {f g : α → EStateM EvaluationError (Evaluation R X σ) β} (h : Simulates answers c x y)
    (hnext : ∀ a, Simulates answers c (f a) (g a)) : Simulates answers c (x >>= f) (y >>= g) :=
  EndsAlike.bind h hnext

theorem ask (x : EStateM EvaluationError σ α) :
    Simulates answers c (ask x : EStateM EvaluationError (Evaluation R X σ) α)
      (Evaluation.ask x) := by
  intro s t hst
  simp only [Evaluation.ask, act, World.ask, ← hst.outside]
  cases x s.world.outside with
  | ok a o => exact .ok ⟨hst.chain, hst.faithful, rfl⟩
  | error e o => exact .error ⟨hst.chain, hst.faithful, rfl⟩

/-- A reference may be resolved on one side only. -/
theorem resolve {sur : Surroundings R X σ} (hgive : sur.Give answers) {source : Option (Source R)}
    {r : Reference} {a : Artifact R X} (hmeaning : answers.meaning source r = .ok a)
    {body : Artifact R X → EStateM EvaluationError (Evaluation R X σ) α}
    {y : EStateM EvaluationError (Evaluation R X σ) α} (h : Simulates answers c (body a) y) :
    Simulates answers c (act .resolution (AccessPolicy.resolve sur source r) >>= body) y := by
  intro s t hst
  obtain ⟨w, hfaithful, houtside, hresolve⟩ := resolve_eq_meaning hgive hst.faithful source r
  simp only [Bind.bind, EStateM.bind, act, hresolve, hmeaning, outcomeIn]
  exact h _ t ⟨hst.chain, hfaithful, houtside.trans hst.outside⟩

/-- An artifact that the chain has a place for may be entered on one side only. -/
theorem within {k : ArtifactKey} {x y : EStateM EvaluationError (Evaluation R X σ) α}
    (hmem : k ∉ c.path) (hroom : c.depth < EvaluationChain.limit)
    (h : Simulates answers ⟨k :: c.path⟩ x y) : Simulates answers c (within k x) y := by
  intro s t hst
  have henter : s.chain.enter k = .ok ⟨k :: c.path⟩ := by
    rw [hst.chain]
    exact EvaluationChain.enter_eq_ok_iff.2 ⟨hmem, hroom, rfl⟩
  have hbody := h { s with chain := ⟨k :: c.path⟩ } t ⟨rfl, hst.faithful, hst.outside⟩
  simp only [Evaluation.within, henter]
  cases hx : x { s with chain := ⟨k :: c.path⟩ } <;> cases hy : y t <;> rw [hx, hy] at hbody <;>
    cases hbody
  · next hst' => exact .ok ⟨by rw [hst'.chain]; rfl, hst'.faithful, hst'.outside⟩
  · next hst' => exact .error ⟨by rw [hst'.chain]; rfl, hst'.faithful, hst'.outside⟩

end Simulates

end AccessPolicy
