import AccessPolicy.Proofs.Construction.Resolving
import AccessPolicy.Proofs.Evaluation.Afresh
import AccessPolicy.Proofs.Evaluation.Inlining

namespace AccessPolicy

variable {R X σ : Type} [DecidableEq R]

/-- The world after evaluating artifacts one after the other, each with an evaluator of its own and
whatever comes of it. -/
def World.afterAll (sur : Surroundings R X σ) (w : World R X σ)
    (earlier : List (Evaluator σ × Artifact R X)) : World R X σ :=
  earlier.foldl (fun w e => endState (evaluate sur e.1 e.2 w)) w

/-- The outcomes are the same, and so are the states outside. -/
def SameEnd : EStateM.Result ε (World R X σ) α → EStateM.Result ε (World R X σ) α → Prop :=
  EndAlike fun v w => v.outside = w.outside

theorem endState_evaluate (sur : Surroundings R X σ) (ev : Evaluator σ) (a : Artifact R X)
    (w : World R X σ) :
    endState (evaluate sur ev a w) = (endState (evaluateIn sur ev a ⟨.empty, w⟩)).world := by
  simp only [evaluate]
  cases evaluateIn sur ev a ⟨.empty, w⟩ <;> rfl

theorem World.History.afterAll {sur : Surroundings R X σ} {w : World R X σ} (hw : w.History sur)
    (earlier : List (Evaluator σ × Artifact R X)) : (w.afterAll sur earlier).History sur := by
  induction earlier generalizing w with
  | nil => exact hw
  | cons e rest ih =>
    have hfirst : (endState (evaluate sur e.1 e.2 w)).History sur := by
      rw [endState_evaluate]
      exact hw.evaluated e.1 e.2 .empty
    exact ih hfirst

omit [DecidableEq R] in
/-- Ending like the same computation without a memory is ending alike. -/
theorem SameEnd.of_afresh {x y : EStateM.Result ε (World R X σ) α} {z : EStateM.Result ε σ α}
    (hx : EndAlike (fun v outside => v.outside = outside) x z)
    (hy : EndAlike (fun v outside => v.outside = outside) y z) : SameEnd x y := by
  cases hx with
  | ok hv => cases hy with | ok hw => exact .ok (hv.trans hw.symm)
  | error hv => cases hy with | error hw => exact .error (hv.trans hw.symm)

section

variable {sur : Surroundings R X σ} {answers : Answers R X}

/-- Artifacts with one document and one resolver are evaluated alike, whatever is remembered for
each of them. -/
theorem evaluate_sameEnd (hgive : sur.Give answers) (ev : Evaluator σ) (d : PolicyDocument)
    {s t : Option (Source R)} (hresolver : s.map Source.resolver = t.map Source.resolver)
    {v w : World R X σ} (hv : v.History sur) (hw : w.History sur)
    (houtside : v.outside = w.outside) :
    SameEnd (evaluate sur ev (.standard d s) v) (evaluate sur ev (.standard d t) w) := by
  have hafresh (u : World R X σ) (hu : u.History sur) (source : Option (Source R)) :
      EndAlike (fun u' outside => u'.outside = outside) (evaluate sur ev (.standard d source) u)
        (evaluateAfresh sur ev (.standard d source) u.outside) :=
    evaluate_endAlike_afresh hgive (hu.faithful hgive) (.standard d source)
  have hfirst := hafresh v hv s
  have hsecond := hafresh w hw t
  rw [houtside, evaluateAfresh_congr sur ev d hresolver] at hfirst
  exact SameEnd.of_afresh hfirst hsecond

/-- What an eager constructor gives, a lazy one gives too; only the source is another one. -/
theorem lazy_of_eager {limit : UInt64} {input : ByteStream} {expected : Option ArtifactKind}
    {resolver : R} {a : Artifact R X} {w w' : World R X σ}
    (h : ((StandardConstructor.mk .eager limit).constructResolving sur expected resolver).on input
      w = .ok a w') (v : World R X σ) :
    ∃ d, a = .standard d (some (w.openSource resolver).1) ∧
      ((StandardConstructor.mk .lazy limit).constructResolving sur expected resolver).on input v =
        .ok (.standard d (some (v.openSource resolver).1)) (v.openSource resolver).2 := by
  obtain ⟨d, hread, hbuild⟩ := StandardConstructor.constructResolving_eq_ok_iff.1 h
  obtain ⟨ha, -⟩ := StandardConstructor.build_eq_ok_iff.1 hbuild
  refine ⟨d, ha, StandardConstructor.constructResolving_eq_ok_iff.2 ⟨d, hread, ?_⟩⟩
  exact StandardConstructor.build_eq_ok_iff.2 ⟨rfl, rfl⟩

/-- Neither what is remembered nor the mode of resolution changes a result, while resolvers always
answer alike. After any earlier evaluations an evaluation gives the decision or the error of the
evaluator that asks at every reference, so an evaluation that is repeated in the same state outside
gives the same again. When eager construction succeeds, so does lazy construction from the same
stream with the same resolver, and whatever happens afterwards, the two artifacts are evaluated
alike. -/
theorem evaluate_independent_of_memory (hgive : sur.Give answers) :
    (∀ (earlier : List (Evaluator σ × Artifact R X)) (ev : Evaluator σ) (a : Artifact R X)
      (w : World R X σ), w.History sur →
        EndAlike (fun v outside => v.outside = outside)
          (evaluate sur ev a (w.afterAll sur earlier))
          (evaluateAfresh sur ev a (w.afterAll sur earlier).outside)) ∧
    (∀ (earlier : List (Evaluator σ × Artifact R X)) (ev : Evaluator σ) (a : Artifact R X)
      (w : World R X σ), w.History sur →
        SameEnd (evaluate sur ev a w)
          (evaluate sur ev a { w.afterAll sur earlier with outside := w.outside })) ∧
    (∀ (limit : UInt64) (input : ByteStream) (expected : Option ArtifactKind) (resolver : R)
      (a : Artifact R X) (w w' v : World R X σ), w.History sur → v.History sur →
        ((StandardConstructor.mk .eager limit).constructResolving sur expected resolver).on input
          w = .ok a w' →
        ∃ b v',
          ((StandardConstructor.mk .lazy limit).constructResolving sur expected resolver).on input
            v = .ok b v' ∧ w'.History sur ∧ v'.History sur ∧
          ∀ (ev : Evaluator σ) (u u' : World R X σ), u.History sur → u'.History sur →
            u.outside = u'.outside → SameEnd (evaluate sur ev a u) (evaluate sur ev b u')) := by
  refine ⟨fun earlier ev a w hw => ?_, fun earlier ev a w hw => ?_, ?_⟩
  · exact evaluate_endAlike_afresh hgive ((hw.afterAll earlier).faithful hgive) a
  · have hagain := ((hw.afterAll earlier).changed w.outside).faithful hgive
    exact SameEnd.of_afresh (evaluate_endAlike_afresh hgive (hw.faithful hgive) a)
      (evaluate_endAlike_afresh hgive hagain a)
  · intro limit input expected resolver a w w' v hw hv heager
    obtain ⟨d, rfl, hlazy⟩ := lazy_of_eager heager v
    refine ⟨_, _, hlazy, StandardConstructor.history_of_constructResolving hw heager,
      StandardConstructor.history_of_constructResolving hv hlazy, ?_⟩
    intro ev u u' hu hu' houtside
    have hresolver : (some (w.openSource resolver).1).map Source.resolver =
        (some (v.openSource resolver).1).map Source.resolver := rfl
    exact evaluate_sameEnd hgive ev d hresolver hu hu' houtside

end

/-- After the set that refers to a set was evaluated once, every reference is remembered, and it is
evaluated like an artifact that must ask for each of them. -/
theorem evaluate_independent_of_memory_outerArtifact :
    EndAlike (fun v outside => v.outside = outside)
      (evaluate nestedSurroundings indifferent outerArtifact
        ((World.new ()).afterAll nestedSurroundings [(indifferent, outerArtifact)]))
      (evaluateAfresh nestedSurroundings indifferent outerArtifact ()) := by
  have hgive : nestedSurroundings.Give nestedAnswers := fun _ _ _ _ => rfl
  obtain ⟨hafresh, -⟩ := evaluate_independent_of_memory hgive
  exact hafresh [(indifferent, outerArtifact)] indifferent outerArtifact (.new ()) (.new ())

end AccessPolicy
