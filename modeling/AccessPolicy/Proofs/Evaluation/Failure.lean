import AccessPolicy.Proofs.Evaluation.Termination

namespace AccessPolicy

open Evaluation Moment

variable {R X σ : Type} [DecidableEq R]

def Moment.Failed (m : Moment R X σ) : Prop :=
  ∃ e, m.task = .failed e

/-- The moment is reached without a failure, and the step that comes next fails with the error. -/
structure FirstFailure (sur : Surroundings R X σ) (ev : Evaluator σ) (start m : Moment R X σ)
    (e : EvaluationError) : Prop where
  reaches : Reaches sur ev start m
  unfailed : ¬ m.Failed
  fails : ∃ n, step sur ev m = some n ∧ n.task = .failed e

variable {sur : Surroundings R X σ} {ev : Evaluator σ}

/-- A failure is handed on unchanged. -/
theorem failed_of_step {m n : Moment R X σ} {e : EvaluationError} (hm : m.task = .failed e)
    (h : step sur ev m = some n) : n.task = .failed e := by
  obtain ⟨task, pending, s⟩ := m
  obtain rfl : task = .failed e := hm
  obtain _ | ⟨_ | _, pending⟩ := pending <;> cases h <;> rfl

theorem Reaches.failed {m n : Moment R X σ} {e : EvaluationError} (h : Reaches sur ev m n)
    (hm : m.task = .failed e) : n.task = .failed e := by
  induction h with
  | refl => exact hm
  | tail _ hstep ih => exact failed_of_step ih hstep

theorem exists_firstFailure {m n : Moment R X σ} {e : EvaluationError} (h : Reaches sur ev m n)
    (hm : ¬ m.Failed) (hn : n.task = .failed e) : ∃ k, FirstFailure sur ev m k e := by
  induction h with
  | refl => exact absurd ⟨e, hn⟩ hm
  | @tail k n hreach hstep ih =>
    by_cases hfailed : k.Failed
    · obtain ⟨e', hk⟩ := hfailed
      have hsame : Task.failed (R := R) (X := X) e' = .failed e :=
        (failed_of_step hk hstep).symm.trans hn
      exact ih (hk.trans hsame)
    · exact ⟨k, hreach, hfailed, n, hstep, hn⟩

/-- An evaluation has one first failing moment at most. -/
theorem FirstFailure.unique {start m n : Moment R X σ} {e e' : EvaluationError}
    (hm : FirstFailure sur ev start m e) (hn : FirstFailure sur ev start n e') : m = n := by
  have hafter {k l : Moment R X σ} {f : EvaluationError} (hk : FirstFailure sur ev start k f)
      (hl : ¬ l.Failed) (h : Reaches sur ev k l) : k = l := by
    obtain rfl | ⟨next, hstep, hrest⟩ := Relation.ReflTransGen.cases_head h
    · rfl
    · obtain ⟨failed, hfails, hfailed⟩ := hk.fails
      obtain rfl := Option.some.inj (hfails.symm.trans hstep)
      exact absurd ⟨f, Reaches.failed hrest hfailed⟩ hl
  obtain h | h := Relation.ReflTransGen.total_of_right_unique rightUnique_step hm.reaches hn.reaches
  · exact hafter hm hn.unfailed h
  · exact (hafter hn hm.unfailed h).symm

/-- Evaluating fails with an error exactly when its first failing step does. -/
theorem evaluateIn_eq_error_iff {a : Artifact R X} {s : Evaluation R X σ} {e : EvaluationError} :
    (∃ t, evaluateIn sur ev a s = .error e t) ↔ ∃ m, FirstFailure sur ev (start a s) m e := by
  have hlast : Reaches sur ev (start a s) _ := reaches_evaluateIn a s
  constructor
  · rintro ⟨t, hrun⟩
    rw [hrun] at hlast
    exact exists_firstFailure hlast (by simp [Moment.Failed, start]) rfl
  · rintro ⟨m, hreach, -, n, hstep, hn⟩
    have hrest := (hlast.last_of_last (step_settle_nil _) (hreach.tail hstep)).failed hn
    cases hrun : evaluateIn sur ev a s with
    | ok d t => rw [hrun] at hrest; cases hrest
    | error e' t =>
      rw [hrun] at hrest
      cases hrest
      exact ⟨t, rfl⟩

theorem evaluate_eq_error_iff {a : Artifact R X} {w : World R X σ} {e : EvaluationError} :
    (∃ w', evaluate sur ev a w = .error e w') ↔
      ∃ m, FirstFailure sur ev (start a ⟨.empty, w⟩) m e := by
  rw [← evaluateIn_eq_error_iff]
  simp only [evaluate]
  cases evaluateIn sur ev a ⟨.empty, w⟩ <;> simp

end AccessPolicy
