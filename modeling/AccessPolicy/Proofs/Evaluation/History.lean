import AccessPolicy.Proofs.Evaluation.Run
import AccessPolicy.Proofs.Resolution.Pure

namespace AccessPolicy

open Evaluation Moment

variable {R X σ : Type} [DecidableEq R]

/-- The worlds that arise from new ones: sources are opened, references are resolved in advance,
artifacts are evaluated on whatever chain, and the state outside changes in any way. -/
inductive World.History (sur : Surroundings R X σ) : World R X σ → Prop
  | new (outside : σ) : History sur (.new outside)
  | opened {w : World R X σ} (h : History sur w) (resolver : R) :
      History sur (w.openSource resolver).2
  | resolved {w : World R X σ} (h : History sur w) (source : Option (Source R))
      (rs : List Reference) : History sur (endState (resolveAll sur source rs w))
  | evaluated {w : World R X σ} (h : History sur w) (ev : Evaluator σ) (a : Artifact R X)
      (chain : EvaluationChain) : History sur (endState (evaluateIn sur ev a ⟨chain, w⟩)).world
  | changed {w : World R X σ} (h : History sur w) (outside : σ) : History sur { w with outside }

section

variable {sur : Surroundings R X σ} {ev : Evaluator σ} {P : World R X σ → Prop}
  (hresolve : ∀ source r w, P w → P (endState (resolve sur source r w)))

include hresolve

theorem world_of_resolveAll {source : Option (Source R)} {rs : List Reference}
    {w : World R X σ} (hw : P w) : P (endState (resolveAll sur source rs w)) := by
  induction rs generalizing w with
  | nil => exact hw
  | cons r rest ih =>
    have hfirst := hresolve source r w hw
    simp only [resolveAll, Bind.bind, EStateM.bind]
    cases hrun : resolve sur source r w with
    | error e t => rw [hrun] at hfirst; exact hfirst
    | ok a t => rw [hrun] at hfirst; exact ih hfirst

variable (hchanged : ∀ w outside, P w → P { w with outside })

include hchanged

/-- A step leaves the world alone, changes the state outside or resolves one reference. -/
theorem world_of_step {m n : Moment R X σ} (hm : P m.state.world) (h : step sur ev m = some n) :
    P n.state.world := by
  obtain ⟨source, r, -, hworld⟩ | ⟨-, outside, hworld⟩ := world_step_cases h
  · rw [hworld]
    exact hresolve source r _ hm
  · rw [hworld]
    exact hchanged _ outside hm

theorem Reaches.world {m n : Moment R X σ} (h : Reaches sur ev m n) (hm : P m.state.world) :
    P n.state.world := by
  induction h with
  | refl => exact hm
  | tail _ hstep ih => exact world_of_step hresolve hchanged ih hstep

theorem world_of_evaluateIn (a : Artifact R X) {s : Evaluation R X σ} (hs : P s.world) :
    P (endState (evaluateIn sur ev a s)).world := by
  have hreach : Reaches sur ev (start a s) _ := reaches_evaluateIn a s
  have hlast := hreach.world hresolve hchanged hs
  cases hrun : evaluateIn sur ev a s <;> rw [hrun] at hlast <;> exact hlast

/-- What holds of new worlds and is kept by opening sources, by resolving references and by changes
of the state outside, holds of every world that has come about. -/
theorem World.History.invariant (hnew : ∀ outside, P (.new outside))
    (hopened : ∀ w resolver, P w → P (w.openSource resolver).2) {w : World R X σ}
    (h : w.History sur) : P w := by
  induction h with
  | new outside => exact hnew outside
  | opened _ resolver ih => exact hopened _ resolver ih
  | resolved _ source rs ih => exact world_of_resolveAll hresolve ih
  | evaluated _ ev a chain ih => exact world_of_evaluateIn hresolve hchanged a ih
  | changed _ outside ih => exact hchanged _ outside ih

end

theorem endState_outcomeIn (x : Except ε α) (s : τ) : endState (outcomeIn x s) = s := by
  cases x <;> rfl

theorem World.Faithful.resolve {sur : Surroundings R X σ} {answers : Answers R X}
    {w : World R X σ} (hgive : sur.Give answers) (hw : w.Faithful answers)
    (source : Option (Source R)) (r : Reference) :
    (endState (AccessPolicy.resolve sur source r w)).Faithful answers := by
  obtain ⟨w', hfaithful, -, hresolve⟩ := resolve_eq_meaning hgive hw source r
  rw [hresolve, endState_outcomeIn]
  exact hfaithful

theorem Reaches.faithful {sur : Surroundings R X σ} {ev : Evaluator σ} {answers : Answers R X}
    {m n : Moment R X σ} (hgive : sur.Give answers) (h : Reaches sur ev m n)
    (hm : m.state.world.Faithful answers) : n.state.world.Faithful answers :=
  h.world (fun source r _ hw => hw.resolve hgive source r) (fun _ _ hw => hw) hm

theorem World.History.faithful {sur : Surroundings R X σ} {answers : Answers R X}
    {w : World R X σ} (hgive : sur.Give answers) (h : w.History sur) : w.Faithful answers :=
  h.invariant (fun source r _ hw => hw.resolve hgive source r) (fun _ _ hw => hw)
    (fun outside => faithful_new answers outside) (fun _ _ hw => hw)

end AccessPolicy
