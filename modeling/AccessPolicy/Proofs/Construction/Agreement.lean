import AccessPolicy.Proofs.Construction.Canonical
import AccessPolicy.Proofs.Document.ExpectedKind
import AccessPolicy.Proofs.Resolution.Source

namespace AccessPolicy.StandardConstructor

variable {R X σ : Type} [DecidableEq R] {c : StandardConstructor} {sur : Surroundings R X σ}
  {answer : String → Option VersionPattern → Except ResolutionError (Artifact R X)} {s t : Source R}

theorem checksKind_readDocument (c : StandardConstructor) (input : ByteStream) :
    ChecksKind fun expected => (c.readDocument expected).on input := by
  simp only [on_readDocument]
  cases hbytes : (readBytes c.maxDocumentBytes).on input with
  | ok bytes => exact PolicyDocument.checksKind_read bytes
  | error e =>
    refine .unread ?_ fun _ => rfl
    rintro ⟨expected, actual, rfl⟩
    rw [on_readBytes] at hbytes
    split at hbytes
    · cases hbytes
    · split at hbytes <;> cases hbytes

theorem not_ofKind_of_build {d : PolicyDocument} {source : Option (Source R)}
    {e : ConstructionError} {w w' : World R X σ} (h : c.build sur d source w = .error e w') :
    ¬ e.OfKind := by
  obtain ⟨r, rfl⟩ := exists_resolution_of_build h
  rintro ⟨expected, actual, hsame⟩
  cases hsame

/-- Both artifacts are for one document and have been given the same for its references, or both
constructions fail with one error. -/
inductive BuiltAlike : EStateM.Result ConstructionError (World R X σ) (Artifact R X) →
    EStateM.Result ConstructionError (World R X σ) (Artifact R X) → Prop
  | ok {a b : Artifact R X} {w v : World R X σ} (hdocument : b.document = a.document)
      (hgiven : ∀ k, v.given? b k = w.given? a k)
      (hcount : v.resolvedCount b = w.resolvedCount a) : BuiltAlike (.ok a w) (.ok b v)
  | error {e : ConstructionError} {w v : World R X σ} : BuiltAlike (.error e w) (.error e v)

/-- An artifact for a document can be built at any time with the same outcome. -/
theorem builtAlike_build (hpure : sur.PureAt t.resolver answer)
    (hresolver : s.resolver = t.resolver) (d : PolicyDocument) {w v : World R X σ}
    (h : World.AlikeFor s t w v) :
    BuiltAlike (c.build sur d (some s) w) (c.build sur d (some t) v) := by
  have hend : EndAlike (World.AlikeFor s t) (resolveAll sur (some s) d.references w)
      (resolveAll sur (some t) d.references v) := resolveAll_endsAlike hpure hresolver _ w v h
  have hok {w v : World R X σ} (h : World.AlikeFor s t w v) :
      BuiltAlike (.ok (.standard d (some s)) w) (.ok (.standard d (some t)) v) :=
    .ok rfl (fun k => (h.remembered k).symm) (congrArg some h.count.symm)
  unfold build
  cases c.resolution with
  | lazy => exact hok h
  | eager =>
    simp only [Bind.bind, EStateM.bind, EStateM.adaptExcept]
    cases hw : resolveAll sur (some s) d.references w <;>
      cases hv : resolveAll sur (some t) d.references v <;> rw [hw, hv] at hend <;> cases hend
    · next h => exact hok h
    · exact .error

theorem builtAlike_constructResolving {resolver : R} (hpure : sur.PureAt resolver answer)
    (input : ByteStream) (expected : Option ArtifactKind) {w v : World R X σ} (hw : w.Numbered)
    (hv : v.Numbered) :
    BuiltAlike ((c.constructResolving sur expected resolver).on input w)
      ((c.constructResolving sur expected resolver).on input v) := by
  rw [on_constructResolving]
  cases (c.readDocument expected).on input with
  | error e => exact .error
  | ok d =>
    have hresolver : (w.openSource resolver).1.resolver = (v.openSource resolver).1.resolver := rfl
    exact builtAlike_build hpure hresolver d (World.alikeFor_openSource hw hv resolver)

theorem numbered_constructResolving {w : World R X σ} (hw : w.Numbered) (input : ByteStream)
    (expected : Option ArtifactKind) (resolver : R) :
    (endState ((c.constructResolving sur expected resolver).on input w)).Numbered := by
  rw [on_constructResolving]
  cases (c.readDocument expected).on input with
  | error e => exact hw
  | ok d =>
    have hopened := hw.openSource resolver
    have hresolved := hopened.resolveAll sur (s := (w.openSource resolver).1)
      (Nat.lt_succ_self _) d.references
    simp only [Bind.bind, EStateM.bind, openSource, build]
    cases c.resolution with
    | lazy => exact hopened
    | eager =>
      simp only [EStateM.bind, EStateM.adaptExcept]
      cases hrun : resolveAll sur (some (w.openSource resolver).1) d.references
        (w.openSource resolver).2 <;> rw [hrun] at hresolved <;> exact hresolved

/-- The expected kind makes no difference to the construction, but that it fails for the other kind
where the kind of the document is found. -/
theorem constructResolving_cases (c : StandardConstructor) (sur : Surroundings R X σ)
    (input : ByteStream) (resolver : R) :
    (∃ e, ¬ e.OfKind ∧
      ∀ expected w, (c.constructResolving sur expected resolver).on input w = .error e w) ∨
    ∃ kind, (c.constructResolving sur (some kind) resolver).on input =
        (c.constructResolving sur none resolver).on input ∧
      (∀ other, other ≠ kind → ∀ w,
        (c.constructResolving sur (some other) resolver).on input w =
          .error (.kindMismatch other kind) w) ∧
      (∀ a w w', (c.constructResolving sur none resolver).on input w = .ok a w' → a.kind = kind) ∧
      ∀ e w w', (c.constructResolving sur none resolver).on input w = .error e w' → ¬ e.OfKind := by
  have hunread {expected : Option ArtifactKind} {e : ConstructionError}
      (h : (c.readDocument expected).on input = .error e) (w : World R X σ) :
      (c.constructResolving sur expected resolver).on input w = .error e w := by
    rw [on_constructResolving, h]
    rfl
  obtain ⟨herror, hread⟩ | ⟨kind, hsame, hother, hkind, herror⟩ := c.checksKind_readDocument input
  · exact .inl ⟨_, herror, fun expected => hunread (hread expected)⟩
  · refine .inr ⟨kind, ?_, fun other hne => hunread (hother other hne), fun a w w' h => ?_,
      fun e w w' h => ?_⟩
    · rw [on_constructResolving, on_constructResolving, hsame]
    · obtain ⟨d, hdocument, hbuild⟩ := constructResolving_eq_ok_iff.1 h
      obtain ⟨rfl, -⟩ := build_eq_ok_iff.1 hbuild
      exact hkind d hdocument
    · cases hdocument : (c.readDocument none).on input with
      | error e' =>
        rw [hunread hdocument] at h
        cases h
        exact herror e hdocument
      | ok d =>
        rw [on_constructResolving, hdocument] at h
        exact not_ofKind_of_build h

/-- The document that a construction comes to, or its error. -/
def documentOf :
    EStateM.Result ConstructionError (World R X σ) (Artifact R X) →
      Except ConstructionError PolicyDocument
  | .ok a _ => .ok a.document
  | .error e _ => .error e

theorem BuiltAlike.documentOf_eq
    {x y : EStateM.Result ConstructionError (World R X σ) (Artifact R X)} (h : BuiltAlike x y) :
    documentOf y = documentOf x := by
  cases h with
  | ok hdocument => exact congrArg Except.ok hdocument
  | error => rfl

theorem documentOf_constructResolving_lazy (hlazy : c.resolution = .lazy) (input : ByteStream)
    (expected : Option ArtifactKind) (resolver : R) (w : World R X σ) :
    documentOf ((c.constructResolving sur expected resolver).on input w) =
      (c.readDocument expected).on input := by
  rw [on_constructResolving]
  cases (c.readDocument expected).on input with
  | error e => rfl
  | ok d =>
    have hbuild := build_lazy hlazy sur d (some (w.openSource resolver).1) (w.openSource resolver).2
    simp only [Bind.bind, EStateM.bind, openSource, hbuild]
    rfl

theorem documentOf_construct_lazy (hlazy : c.resolution = .lazy) (input : ByteStream)
    (kind : ArtifactKind) (w : World R X σ) :
    documentOf ((c.construct sur kind).on input w) = (c.readDocument (some kind)).on input := by
  rw [on_construct]
  cases (c.readDocument (some kind)).on input with
  | error e => rfl
  | ok d => simp only [build_lazy hlazy sur d none w]; rfl

/-- The operations of a standard constructor agree on every stream, while the resolver always
answers alike. What is built by the kind of the document is also built when that kind is asked for,
with the same document and the same references resolved, and is refused as being of another kind
otherwise. What cannot be built by its kind fails with the same error whichever kind is asked for,
or with that error for the one kind and as being of another kind for the other. Without a resolver,
a lazy constructor comes to the same document or the same error as with one. -/
theorem operations_agree {resolver : R} (hpure : sur.PureAt resolver answer) (input : ByteStream)
    {w v : World R X σ} (hw : w.Numbered) (hv : v.Numbered) :
    (∀ a w', ((c.toConstructor sur).constructInferred resolver).on input w = .ok a w' →
      (∃ b v', ((c.toConstructor sur).constructWithResolver a.kind resolver).on input v = .ok b v' ∧
        b.document = a.document ∧ (∀ k, v'.given? b k = w'.given? a k) ∧
        v'.resolvedCount b = w'.resolvedCount a) ∧
      ∀ other, other ≠ a.kind →
        documentOf (((c.toConstructor sur).constructWithResolver other resolver).on input v) =
          .error (.kindMismatch other a.kind)) ∧
    (∀ e w', ((c.toConstructor sur).constructInferred resolver).on input w = .error e w' →
      (∀ kind,
        documentOf (((c.toConstructor sur).constructWithResolver kind resolver).on input v) =
          .error e) ∨
      ∃ kind,
        documentOf (((c.toConstructor sur).constructWithResolver kind resolver).on input v) =
          .error e ∧
        ¬ e.OfKind ∧
        ∀ other, other ≠ kind →
          documentOf (((c.toConstructor sur).constructWithResolver other resolver).on input v) =
            .error (.kindMismatch other kind)) ∧
    (c.resolution = .lazy → ∀ kind (u : World R X σ),
      documentOf (((c.toConstructor sur).construct kind).on input u) =
        documentOf (((c.toConstructor sur).constructWithResolver kind resolver).on input v)) := by
  have hagain := builtAlike_constructResolving (c := c) hpure input none hw hv
  refine ⟨fun a w' h => ?_, fun e w' h => ?_, fun hlazy kind u => ?_⟩
  · have hinferred : (c.constructResolving sur none resolver).on input w = .ok a w' := h
    rw [hinferred] at hagain
    obtain ⟨e, -, hfails⟩ | ⟨kind, hsame, hother, hkind, -⟩ :=
      c.constructResolving_cases sur input resolver
    · rw [hfails] at hinferred
      cases hinferred
    · obtain rfl := hkind a w w' hinferred
      refine ⟨?_, fun other hne => congrArg documentOf (hother other hne v)⟩
      have hrun : ((c.toConstructor sur).constructWithResolver a.kind resolver).on input v =
          (c.constructResolving sur none resolver).on input v := congrFun hsame v
      cases hv' : (c.constructResolving sur none resolver).on input v <;> rw [hv'] at hagain hrun <;>
        cases hagain
      · next hdocument hgiven hcount => exact ⟨_, _, hrun, hdocument, hgiven, hcount⟩
  · have hinferred : (c.constructResolving sur none resolver).on input w = .error e w' := h
    rw [hinferred] at hagain
    obtain ⟨e', -, hfails⟩ | ⟨kind, hsame, hother, -, herror⟩ :=
      c.constructResolving_cases sur input resolver
    · rw [hfails] at hinferred
      cases hinferred
      exact .inl fun kind => congrArg documentOf (hfails (some kind) v)
    · refine .inr ⟨kind, ?_, herror e w w' hinferred, fun other hne =>
        congrArg documentOf (hother other hne v)⟩
      have hrun : ((c.toConstructor sur).constructWithResolver kind resolver).on input v =
          (c.constructResolving sur none resolver).on input v := congrFun hsame v
      rw [hrun, hagain.documentOf_eq]
      rfl
  · exact (documentOf_construct_lazy hlazy input kind u).trans
      (documentOf_constructResolving_lazy hlazy input (some kind) resolver v).symm

/-- The world after the policy whose fields stand in an array has been constructed once. -/
def laterWorld : World Unit Empty Unit :=
  endState ((eagerConstructor.constructResolving silentSurroundings none ()).on
    (.ofBytes positionalBytes) (.new ()))

theorem operations_agree_positional :
    laterWorld.Numbered ∧
      (∃ b v',
        ((eagerConstructor.toConstructor silentSurroundings).constructWithResolver .policy ()).on
          (.ofBytes positionalBytes) laterWorld = .ok b v' ∧
        b.document = .policy (Policy.new "p" "a")) ∧
      documentOf
        (((eagerConstructor.toConstructor silentSurroundings).constructWithResolver .policySet ()).on
          (.ofBytes positionalBytes) laterWorld) =
          .error (.kindMismatch .policySet .policy) := by
  have hpure : silentSurroundings.PureAt () fun id pattern =>
      .error (.notFound id (pattern.map VersionPattern.source)) := fun _ _ _ => rfl
  have hnew : (World.new (R := Unit) (X := Empty) ()).Numbered := World.numbered_new ()
  have hlater : laterWorld.Numbered := numbered_constructResolving hnew _ _ _
  obtain ⟨hbuilt, -⟩ := operations_agree (c := eagerConstructor) hpure (.ofBytes positionalBytes)
    hnew hlater
  obtain ⟨⟨b, v', hrun, hdocument, -⟩, hother⟩ := hbuilt _ _ (construct_positional _ _)
  exact ⟨hlater, ⟨b, v', hrun, hdocument⟩, hother .policySet (by decide)⟩

end AccessPolicy.StandardConstructor
