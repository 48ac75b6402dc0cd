import AccessPolicy.Proofs.Evaluation.Failure
import AccessPolicy.Proofs.Evaluation.ReferencePath

namespace AccessPolicy

open Evaluation Moment

/-- The errors of entering an artifact. -/
def EvaluationError.OfPath : EvaluationError → Prop
  | .resolution (.circular _) | .resolution (.tooDeep _ _) => True
  | _ => False

variable {R X σ : Type}

/-- The evaluator never reports errors of the path. -/
structure Evaluator.Quiet (ev : Evaluator σ) : Prop where
  applies : ∀ target s e t, ev.applies target s = .error e t → ¬ e.OfPath
  policy : ∀ p s e t, ev.policy p s = .error e t → ¬ e.OfPath
  combine : ∀ algorithm ds s e t, ev.combine algorithm ds s = .error e t → ¬ e.OfPath

/-- Resolvers never answer with errors of the path. -/
def Answers.Quiet (answers : Answers R X) : Prop :=
  ∀ resolver id pattern e, answers resolver id pattern = .error e →
    ¬ (EvaluationError.resolution e).OfPath

theorem Answers.Quiet.meaning {answers : Answers R X} (hquiet : answers.Quiet)
    {source : Option (Source R)} {r : Reference} {e : ResolutionError}
    (h : answers.meaning source r = .error e) : ¬ (EvaluationError.resolution e).OfPath := by
  obtain _ | s := source
  · cases h
    exact id
  · simp only [Answers.meaning] at h
    split at h
    · cases h
      exact id
    · split at h
      · next hanswer =>
        cases h
        exact hquiet _ _ _ _ hanswer
      · split at h
        · cases h
        · cases h
          exact id

variable [DecidableEq R]

theorem EvaluationChain.enter_eq_error_iff {c : EvaluationChain} {k : ArtifactKey}
    {e : ResolutionError} :
    c.enter k = .error e ↔ (k ∈ c.path ∧ e = .circular k.id) ∨
      (k ∉ c.path ∧ limit ≤ c.depth ∧ e = .tooDeep k.id limit) := by
  unfold enter
  split
  · next hmem => simp [hmem, eq_comm]
  · next hmem =>
    split
    · next hfull => simp [hmem, hfull, eq_comm]
    · next hroom => simp [hmem, hroom]

omit [DecidableEq R] in
theorem failed_after_act {pending : List (Pending R X)}
    {next : α → Task R X × List (Pending R X)} {f : ε → EvaluationError}
    {x : EStateM ε (World R X σ) α} {s : Evaluation R X σ} {e : EvaluationError}
    (hnext : ∀ a, (next a).1 ≠ .failed e)
    (h : (after pending next (act f x s)).task = .failed e) :
    ∃ e' w, x s.world = .error e' w ∧ e = f e' := by
  simp only [act] at h
  cases hrun : x s.world with
  | ok a w =>
    rw [hrun] at h
    exact absurd h (hnext a)
  | error e' w =>
    rw [hrun] at h
    cases h
    exact ⟨e', w, rfl, rfl⟩

omit [DecidableEq R] in
theorem failed_after_ask {pending : List (Pending R X)}
    {next : α → Task R X × List (Pending R X)} {x : EStateM EvaluationError σ α}
    {s : Evaluation R X σ} {e : EvaluationError} (hnext : ∀ a, (next a).1 ≠ .failed e)
    (h : (after pending next (ask x s)).task = .failed e) :
    ∃ t, x s.world.outside = .error e t := by
  obtain ⟨e', w, hask, rfl⟩ := failed_after_act hnext h
  simp only [World.ask] at hask
  cases hrun : x s.world.outside with
  | ok a t => rw [hrun] at hask; cases hask
  | error e t => rw [hrun] at hask; cases hask; exact ⟨t, rfl⟩

/-- Nothing but entering an artifact fails with an error of the path. -/
theorem enter_fails_of_step {answers : Answers R Empty} {sur : Surroundings R Empty σ}
    {m n : Moment R Empty σ} {e : EvaluationError} (hgive : sur.Give answers)
    (hanswers : answers.Quiet) (hev : ev.Quiet) (hworld : m.state.world.Faithful answers)
    (hm : ¬ m.Failed) (h : step sur ev m = some n) (hn : n.task = .failed e) (he : e.OfPath) :
    ∃ b e', m.task = .artifact b ∧ m.state.chain.enter b.key = .error e' ∧ e = .resolution e' := by
  obtain ⟨task, pending, s⟩ := m
  cases task with
  | artifact b =>
    cases b with
    | external d x => exact x.elim
    | standard d source =>
      cases h
      simp only [stepInto] at hn
      cases henter : s.chain.enter (Artifact.standard (X := Empty) d source).key with
      | error e' =>
        rw [henter] at hn
        cases hn
        exact ⟨_, e', rfl, henter, rfl⟩
      | ok chain =>
        rw [henter] at hn
        cases d <;> cases hn
  | policy p =>
    cases h
    obtain ⟨t, hrun⟩ := failed_after_ask (by simp) hn
    exact absurd he (hev.policy _ _ _ _ hrun)
  | set source t =>
    cases h
    obtain ⟨t, hrun⟩ := failed_after_ask (fun applies => by cases applies <;> simp) hn
    exact absurd he (hev.applies _ _ _ _ hrun)
  | members p =>
    obtain ⟨source, algorithm, decisions, _ | ⟨m, rest⟩⟩ := p
    · cases h
      obtain ⟨t, hrun⟩ := failed_after_ask (by simp) hn
      exact absurd he (hev.combine _ _ _ _ _ hrun)
    · cases h
      cases m with
      | reference kind r =>
        obtain ⟨e', w, hrun, rfl⟩ := failed_after_act (by simp) hn
        obtain ⟨w', -, -, hresolve⟩ := resolve_eq_meaning hgive hworld source ⟨kind, r⟩
        rw [hresolve] at hrun
        cases hmeaning : answers.meaning source ⟨kind, r⟩ with
        | ok a => rw [hmeaning] at hrun; cases hrun
        | error e'' =>
          rw [hmeaning] at hrun
          cases hrun
          exact absurd he (hanswers.meaning hmeaning)
      | _ => cases hn
  | decided d => obtain _ | ⟨_ | _, pending⟩ := pending <;> cases h <;> cases hn
  | failed e' => exact absurd ⟨e', rfl⟩ hm

/-- What cannot be entered fails. -/
theorem step_of_enter_fails {sur : Surroundings R Empty σ} {m : Moment R Empty σ}
    {b : Artifact R Empty} {e : ResolutionError} (hm : m.task = .artifact b)
    (h : m.state.chain.enter b.key = .error e) :
    ∃ n, step sur ev m = some n ∧ n.task = .failed (.resolution e) := by
  obtain ⟨task, pending, s⟩ := m
  obtain rfl : task = .artifact b := hm
  cases b with
  | external d x => exact x.elim
  | standard d source =>
    refine ⟨_, rfl, ?_⟩
    simp only [stepInto, h]

/-- In evaluating the root by itself, the first failing step comes to an artifact at the end of a
path of references; the other artifacts of the path are those that are being evaluated. -/
def FailsAt (sur : Surroundings R X σ) (ev : Evaluator σ) (answers : Answers R X)
    (root : Artifact R X) (w : World R X σ) (b : Artifact R X) (outer : List (Artifact R X)) :
    Prop :=
  ∃ m e, FirstFailure sur ev (start root ⟨.empty, w⟩) m e ∧ m.task = .artifact b ∧
    enclosing m.pending = outer ∧ ReferencePath answers root (b :: outer)

section

variable {sur : Surroundings R Empty σ} {answers : Answers R Empty} {w : World R Empty σ}

/-- An evaluation reports an error of the path exactly when its first failing step is to enter an
artifact that the enclosing ones leave no place for. -/
theorem evaluate_path_error_iff {root : Artifact R Empty} {e : ResolutionError}
    (hgive : sur.Give answers) (hanswers : answers.Quiet) (hev : ev.Quiet)
    (hw : w.Faithful answers) (he : (EvaluationError.resolution e).OfPath) :
    (∃ w', evaluate sur ev root w = .error (.resolution e) w') ↔
      ∃ b outer, FailsAt sur ev answers root w b outer ∧
        EvaluationChain.enter ⟨outer.map Artifact.key⟩ b.key = .error e := by
  rw [evaluate_eq_error_iff]
  constructor
  · rintro ⟨m, hm⟩
    obtain ⟨n, hstep, hn⟩ := hm.fails
    have hworld := hm.reaches.faithful hgive hw
    obtain ⟨b, e', htask, henter, hsame⟩ :=
      enter_fails_of_step hgive hanswers hev hworld hm.unfailed hstep hn he
    cases hsame
    have hpath := (hm.reaches.onPath hgive hw).task
    rw [htask] at hpath
    refine ⟨b, _, ⟨m, _, hm, htask, rfl, hpath⟩, ?_⟩
    rwa [← hm.reaches.chain_eq]
  · rintro ⟨b, outer, ⟨m, e', hm, htask, rfl, -⟩, henter⟩
    rw [← hm.reaches.chain_eq] at henter
    exact ⟨m, hm.reaches, hm.unfailed, step_of_enter_fails htask henter⟩

theorem length_le_of_failsAt {sur : Surroundings R X σ} {answers : Answers R X}
    {root b : Artifact R X} {w : World R X σ} {outer : List (Artifact R X)}
    (h : FailsAt sur ev answers root w b outer) : outer.length ≤ EvaluationChain.limit := by
  obtain ⟨m, e, hm, -, rfl, -⟩ := h
  have hlength := (hm.reaches.sound ⟨Nat.zero_le _, List.nodup_nil⟩).length_le
  rwa [hm.reaches.chain_eq, List.length_map] at hlength

theorem evaluate_circular_iff (root : Artifact R Empty) (hgive : sur.Give answers)
    (hanswers : answers.Quiet) (hev : ev.Quiet) (hw : w.Faithful answers) (id : String) :
    (∃ w', evaluate sur ev root w = .error (.resolution (.circular id)) w') ↔
      ∃ b outer, FailsAt sur ev answers root w b outer ∧
        b.key ∈ outer.map Artifact.key ∧ b.id = id := by
  rw [evaluate_path_error_iff (e := .circular id) hgive hanswers hev hw trivial]
  refine exists_congr fun b => exists_congr fun outer => and_congr_right fun _ => ?_
  rw [EvaluationChain.enter_eq_error_iff]
  simp [Artifact.key, eq_comm]

theorem evaluate_tooDeep_iff (root : Artifact R Empty) (hgive : sur.Give answers)
    (hanswers : answers.Quiet) (hev : ev.Quiet) (hw : w.Faithful answers) (id : String)
    (limit : Nat) :
    (∃ w', evaluate sur ev root w = .error (.resolution (.tooDeep id limit)) w') ↔
      limit = 64 ∧ ∃ b outer, FailsAt sur ev answers root w b outer ∧
        b.key ∉ outer.map Artifact.key ∧ outer.length = 64 ∧ b.id = id := by
  rw [evaluate_path_error_iff (e := .tooDeep id limit) hgive hanswers hev hw trivial]
  constructor
  · rintro ⟨b, outer, hfails, henter⟩
    have hlength := length_le_of_failsAt hfails
    obtain ⟨-, hother⟩ | ⟨hmem, hfull, herror⟩ := EvaluationChain.enter_eq_error_iff.1 henter
    · cases hother
    · cases herror
      rw [EvaluationChain.depth, List.length_map] at hfull
      exact ⟨rfl, b, outer, hfails, hmem, Nat.le_antisymm hlength hfull, rfl⟩
  · rintro ⟨rfl, b, outer, hfails, hmem, hlength, rfl⟩
    refine ⟨b, outer, hfails, EvaluationChain.enter_eq_error_iff.2 (.inr ⟨hmem, ?_, rfl⟩)⟩
    rw [EvaluationChain.depth, List.length_map, hlength]
    exact Nat.le_refl _

/-- Coming to the end of a path with an artifact twice or over the limit is reported. -/
theorem evaluate_fails_of_reaches {root b : Artifact R Empty} {m : Moment R Empty σ}
    (hreach : Reaches sur ev (start root ⟨.empty, w⟩) m) (hm : m.task = .artifact b)
    (hpath : ¬ (((b :: enclosing m.pending).map Artifact.key).Nodup ∧
      (b :: enclosing m.pending).length ≤ EvaluationChain.limit)) :
    ∃ e w', evaluate sur ev root w = .error e w' ∧ e.OfPath := by
  have hunfailed : ¬ m.Failed := by simp [Moment.Failed, hm]
  have hsound := hreach.sound ⟨Nat.zero_le _, List.nodup_nil⟩
  cases henter : m.state.chain.enter b.key with
  | ok chain =>
    -- the chain with the artifact on it is that very path
    have hentered := hsound.enter henter
    obtain ⟨-, -, rfl⟩ := EvaluationChain.enter_eq_ok_iff.1 henter
    rw [hreach.chain_eq, ← List.map_cons] at hentered
    exact absurd ⟨hentered.nodup, List.length_map Artifact.key ▸ hentered.length_le⟩ hpath
  | error e =>
    obtain ⟨w', hrun⟩ :=
      evaluate_eq_error_iff.2 ⟨m, hreach, hunfailed, step_of_enter_fails hm henter⟩
    refine ⟨_, w', hrun, ?_⟩
    obtain ⟨-, rfl⟩ | ⟨-, -, rfl⟩ := EvaluationChain.enter_eq_error_iff.1 henter <;> trivial

/-- A circular reference is reported exactly when the first failing step comes to an artifact that
is among the enclosing ones, and that references go too deep exactly when it comes to another one
while 64 artifacts enclose it. So neither is reported when no path of references from the root has
an artifact twice or holds more than 64 of them, and one of them is as soon as the evaluation comes
to the end of a path that has or does. -/
theorem evaluate_reports_path_errors {root : Artifact R Empty} (hgive : sur.Give answers)
    (hanswers : answers.Quiet) (hev : ev.Quiet) (hw : w.History sur) :
    (∀ id, (∃ w', evaluate sur ev root w = .error (.resolution (.circular id)) w') ↔
      ∃ b outer, FailsAt sur ev answers root w b outer ∧
        b.key ∈ outer.map Artifact.key ∧ b.id = id) ∧
    (∀ id limit, (∃ w', evaluate sur ev root w = .error (.resolution (.tooDeep id limit)) w') ↔
      limit = 64 ∧ ∃ b outer, FailsAt sur ev answers root w b outer ∧
        b.key ∉ outer.map Artifact.key ∧ outer.length = 64 ∧ b.id = id) ∧
    ((∀ path, ReferencePath answers root path →
        (path.map Artifact.key).Nodup ∧ path.length ≤ 64) →
      ∀ e w', evaluate sur ev root w = .error e w' → ¬ e.OfPath) ∧
    (∀ m b, Reaches sur ev (start root ⟨.empty, w⟩) m → m.task = .artifact b →
      ¬ (((b :: enclosing m.pending).map Artifact.key).Nodup ∧
        (b :: enclosing m.pending).length ≤ 64) →
      ∃ e w', evaluate sur ev root w = .error e w' ∧ e.OfPath) := by
  have hfaithful := hw.faithful hgive
  have hcircular := evaluate_circular_iff root hgive hanswers hev hfaithful
  have htooDeep := evaluate_tooDeep_iff root hgive hanswers hev hfaithful
  refine ⟨hcircular, htooDeep, fun hpaths e w' hrun he => ?_,
    fun m b hreach hm hpath => evaluate_fails_of_reaches hreach hm hpath⟩
  cases e with
  | engine text => exact he
  | resolution e =>
    cases e with
    | circular id =>
      -- the artifact stands twice on the path to it
      obtain ⟨b, outer, ⟨m, e, -, -, -, hpath⟩, hmem, -⟩ := (hcircular id).1 ⟨w', hrun⟩
      exact (List.nodup_cons.1 (hpaths _ hpath).1).1 hmem
    | tooDeep id limit =>
      obtain ⟨-, b, outer, ⟨m, e, -, -, -, hpath⟩, -, hlength, -⟩ :=
        (htooDeep id limit).1 ⟨w', hrun⟩
      have hbound := (hpaths _ hpath).2
      rw [List.length_cons, hlength] at hbound
      omega
    | _ => exact he

/-- What is answered to every question about the set that refers to itself. -/
def loopAnswers : Answers Unit Empty :=
  fun _ _ _ => .ok loopArtifact

theorem evaluate_reports_loop :
    ∃ b outer, FailsAt loopSurroundings indifferent loopAnswers loopArtifact (.new ()) b outer ∧
      b.key ∈ outer.map Artifact.key ∧ b.id = "loop" := by
  have hgive : loopSurroundings.Give loopAnswers := fun _ _ _ _ => rfl
  have hanswers : loopAnswers.Quiet := by
    intro resolver id pattern e h
    cases h
  have hev : indifferent.Quiet := by
    refine ⟨?_, ?_, ?_⟩ <;> intros <;> next h => cases h
  have hrun : evaluate loopSurroundings indifferent loopArtifact (.new ()) =
      .error (.resolution (.circular "loop"))
        ⟨[((⟨(), 0⟩, ⟨.policySet, "loop", none⟩), loopArtifact)], 0, ()⟩ := rfl
  obtain ⟨hcircular, -⟩ := evaluate_reports_path_errors hgive hanswers hev (.new ())
  exact (hcircular "loop").1 ⟨_, hrun⟩

end

end AccessPolicy
