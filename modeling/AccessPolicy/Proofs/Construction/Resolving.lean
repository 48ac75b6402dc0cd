import AccessPolicy.Proofs.Construction.Operations
import AccessPolicy.Proofs.Evaluation.History
import AccessPolicy.Proofs.Resolution.Source

namespace AccessPolicy.StandardConstructor

variable {R X σ : Type} [DecidableEq R] {c : StandardConstructor} {sur : Surroundings R X σ}

/-- Only eager construction can fail once the document is read, and only by a reference of it. -/
theorem build_eq_ok_iff {d : PolicyDocument} {source : Option (Source R)} {a : Artifact R X}
    {w w' : World R X σ} :
    c.build sur d source w = .ok a w' ↔ a = .standard d source ∧
      match c.resolution with
      | .lazy => w' = w
      | .eager => resolveAll sur source d.references w = .ok () w' := by
  unfold build
  cases c.resolution with
  | lazy => simp [pure, EStateM.pure, eq_comm]
  | eager =>
    simp only [Bind.bind, EStateM.bind, EStateM.adaptExcept]
    cases resolveAll sur source d.references w with
    | error e v => simp
    | ok u v => simp [pure, EStateM.pure, eq_comm]

/-- Building leaves the world alone or resolves the references of the document. -/
theorem world_of_build {d : PolicyDocument} {source : Option (Source R)} {a : Artifact R X}
    {w w' : World R X σ} (h : c.build sur d source w = .ok a w') :
    w' = w ∨ resolveAll sur source d.references w = .ok () w' := by
  obtain ⟨-, hworld⟩ := build_eq_ok_iff.1 h
  cases hmode : c.resolution with
  | lazy =>
    rw [hmode] at hworld
    exact .inl hworld
  | eager =>
    rw [hmode] at hworld
    exact .inr hworld

theorem exists_resolution_of_build {d : PolicyDocument} {source : Option (Source R)}
    {e : ConstructionError} {w w' : World R X σ} (h : c.build sur d source w = .error e w') :
    ∃ r, e = .resolution r := by
  unfold build at h
  cases hmode : c.resolution with
  | lazy => rw [hmode] at h; cases h
  | eager =>
    rw [hmode] at h
    simp only [Bind.bind, EStateM.bind, EStateM.adaptExcept] at h
    cases hrun : resolveAll sur source d.references w with
    | error r v =>
      rw [hrun] at h
      cases h
      exact ⟨r, rfl⟩
    | ok u v => rw [hrun] at h; cases h

/-- Construction reads the document and opens a source for the resolver. -/
theorem constructResolving_eq_ok_iff {input : ByteStream} {expected : Option ArtifactKind}
    {resolver : R} {a : Artifact R X} {w w' : World R X σ} :
    (c.constructResolving sur expected resolver).on input w = .ok a w' ↔
      ∃ d, (c.readDocument expected).on input = .ok d ∧
        c.build sur d (some (w.openSource resolver).1) (w.openSource resolver).2 = .ok a w' := by
  rw [on_constructResolving]
  cases (c.readDocument expected).on input with
  | error e =>
    constructor
    · intro h
      cases h
    · rintro ⟨d, h, -⟩
      cases h
  | ok d => simp [Bind.bind, EStateM.bind, openSource]

/-- Construction without a resolver reads the document and opens no source. -/
theorem construct_eq_ok_iff {input : ByteStream} {kind : ArtifactKind} {a : Artifact R X}
    {w w' : World R X σ} :
    (c.construct sur kind).on input w = .ok a w' ↔
      ∃ d, (c.readDocument (some kind)).on input = .ok d ∧ c.build sur d none w = .ok a w' := by
  rw [on_construct]
  cases (c.readDocument (some kind)).on input with
  | error e =>
    constructor
    · intro h
      cases h
    · rintro ⟨d, h, -⟩
      cases h
  | ok d => simp

/-- With a resolver that answers, eager construction of a document that is read comes to what its
references mean, in order. -/
theorem constructResolving_eager {input : ByteStream} {expected : Option ArtifactKind} {resolver : R}
    {d : PolicyDocument} {answers : Answers R X} {w : World R X σ} (heager : c.resolution = .eager)
    (hread : (c.readDocument expected).on input = .ok d) (hw : w.Numbered)
    (hanswers : sur.AnswersIn w.outside resolver (answers resolver)) :
    ∃ w', (c.constructResolving sur expected resolver).on input w =
      outcomeIn (((answers.meanings (some (w.openSource resolver).1) d.references).mapError
        .resolution).map fun _ => .standard d (some (w.openSource resolver).1)) w' := by
  have hfresh : (w.openSource resolver).2.FaithfulFor answers (w.openSource resolver).1 := by
    intro r a hremembered
    rw [World.remembered?_openSource hw] at hremembered
    cases hremembered
  have hopened : sur.AnswersIn (w.openSource resolver).2.outside resolver (answers resolver) :=
    hanswers
  obtain ⟨w', hresolve⟩ := resolveAll_eq_meanings hopened hfresh d.references
  refine ⟨w', ?_⟩
  simp only [on_constructResolving, hread, build, heager, Bind.bind, EStateM.bind, EStateM.adaptExcept,
    openSource, hresolve]
  cases answers.meanings (some (w.openSource resolver).1) d.references <;> rfl

theorem history_of_build {d : PolicyDocument} {source : Option (Source R)} {a : Artifact R X}
    {w w' : World R X σ} (hw : w.History sur) (h : c.build sur d source w = .ok a w') :
    w'.History sur := by
  obtain rfl | hresolved := world_of_build h
  · exact hw
  · have hhistory := hw.resolved source d.references
    rwa [hresolved] at hhistory

theorem history_of_constructResolving {input : ByteStream} {expected : Option ArtifactKind}
    {resolver : R} {a : Artifact R X} {w w' : World R X σ} (hw : w.History sur)
    (h : (c.constructResolving sur expected resolver).on input w = .ok a w') : w'.History sur := by
  obtain ⟨d, -, hbuild⟩ := constructResolving_eq_ok_iff.1 h
  exact history_of_build (hw.opened resolver) hbuild

end AccessPolicy.StandardConstructor
