import AccessPolicy.Construction.Standard
import AccessPolicy.Grammar.Build
import AccessPolicy.Proofs.Construction.Operations
import AccessPolicy.Proofs.Document.RoundTrip

namespace AccessPolicy

namespace StandardConstructor

/-- The document of a bounded stream of bytes that a document was marshalled to is that document. -/
theorem readDocument_marshalled {d : PolicyDocument} {v : Version} {bytes : List UInt8}
    {expected : Option ArtifactKind} (c : StandardConstructor) (hdefects : d.defects = [])
    (hversion : Version.parse d.version = .ok v) (hmarshal : d.marshal = .ok bytes)
    (hsize : bytes.length ≤ c.maxDocumentBytes.toNat)
    (hdepth : d.toNode.envelope.depth ≤ Json.Reader.maxDepth)
    (hkind : ∀ k ∈ expected, k = d.kind) :
    (c.readDocument expected).on (.ofBytes bytes) = .ok d := by
  rw [PolicyDocument.marshal_eq_ok hdefects] at hmarshal
  cases hmarshal
  rw [on_readDocument, readBytes_ofBytes hsize]
  exact PolicyDocument.read_marshalled hdefects hversion hdepth hkind

/-- Every complete document that fits the limits can be read from some bytes. -/
theorem exists_readDocument_eq_ok {d : PolicyDocument} {v : Version} (c : StandardConstructor)
    (hdefects : d.defects = []) (hversion : Version.parse d.version = .ok v)
    (hsize : (Text.Utf8.encode d.toNode.envelope.chars).length ≤ c.maxDocumentBytes.toNat)
    (hdepth : d.toNode.envelope.depth ≤ Json.Reader.maxDepth) :
    ∃ input, ∀ expected, (∀ k ∈ expected, k = d.kind) →
      (c.readDocument expected).on input = .ok d := by
  rw [← Json.Value.toList_text] at hsize
  exact ⟨.ofBytes _, fun _ hkind => c.readDocument_marshalled hdefects hversion
    (PolicyDocument.marshal_eq_ok hdefects) hsize hdepth hkind⟩

variable {R X σ : Type}

/-- In every world the construction gives an artifact for the document that is marshalled to the
bytes. -/
def Restores (x : Constructing R X σ (Artifact R X)) (d : PolicyDocument) (bytes : List UInt8) :
    Prop :=
  ∀ w, ∃ a w', x w = .ok a w' ∧ a.document = d ∧ a.marshal = .ok bytes

variable [DecidableEq R]

theorem build_lazy {c : StandardConstructor} (hlazy : c.resolution = .lazy)
    (sur : Surroundings R X σ) (d : PolicyDocument) (source : Option (Source R))
    (w : World R X σ) : c.build sur d source w = .ok (.standard d source) w := by
  rw [build, hlazy]
  rfl

theorem constructResolving_lazy {c : StandardConstructor} {d : PolicyDocument} {input : ByteStream}
    {expected : Option ArtifactKind} (hlazy : c.resolution = .lazy)
    (hread : (c.readDocument expected).on input = .ok d) (sur : Surroundings R X σ) (resolver : R)
    (w : World R X σ) :
    (c.constructResolving sur expected resolver).on input w =
      .ok (.standard d (some (w.openSource resolver).1)) (w.openSource resolver).2 := by
  rw [on_constructResolving, hread]
  exact build_lazy hlazy sur d (some (w.openSource resolver).1) (w.openSource resolver).2

theorem construct_restores {c : StandardConstructor} {d : PolicyDocument} {input : ByteStream}
    {bytes : List UInt8} {kind : ArtifactKind} (hlazy : c.resolution = .lazy)
    (hread : (c.readDocument (some kind)).on input = .ok d) (hmarshal : d.marshal = .ok bytes)
    (sur : Surroundings R X σ) : Restores ((c.construct sur kind).on input) d bytes := by
  intro w
  refine ⟨.standard d none, w, ?_, rfl, hmarshal⟩
  rw [on_construct, hread]
  exact build_lazy hlazy sur d none w

theorem constructResolving_restores {c : StandardConstructor} {d : PolicyDocument}
    {input : ByteStream} {bytes : List UInt8} {expected : Option ArtifactKind}
    (hlazy : c.resolution = .lazy) (hread : (c.readDocument expected).on input = .ok d)
    (hmarshal : d.marshal = .ok bytes) (sur : Surroundings R X σ) (resolver : R) :
    Restores ((c.constructResolving sur expected resolver).on input) d bytes :=
  fun w => ⟨_, _, constructResolving_lazy hlazy hread sur resolver w, rfl, hmarshal⟩

/-- Construction undoes marshalling. A document without a defect whose version is one is marshalled,
and while what is written fits the limits of size and of nesting, each operation of a lazy
constructor gives an artifact for that document, which is marshalled to the same bytes again. -/
theorem construct_marshalled {c : StandardConstructor} {d : PolicyDocument} {v : Version}
    (hlazy : c.resolution = .lazy) (hdefects : d.defects = [])
    (hversion : Version.parse d.version = .ok v) :
    ∃ bytes, d.marshal = .ok bytes ∧
      (bytes.length ≤ c.maxDocumentBytes.toNat →
        d.toNode.envelope.depth ≤ Json.Reader.maxDepth →
        ∀ (sur : Surroundings R X σ) (resolver : R),
          Restores (((c.toConstructor sur).construct d.kind).on (.ofBytes bytes)) d bytes ∧
          Restores
            (((c.toConstructor sur).constructWithResolver d.kind resolver).on (.ofBytes bytes))
            d bytes ∧
          Restores (((c.toConstructor sur).constructInferred resolver).on (.ofBytes bytes))
            d bytes) := by
  have hmarshal := PolicyDocument.marshal_eq_ok hdefects
  refine ⟨_, hmarshal, fun hsize hdepth sur resolver => ?_⟩
  have hexpected : (c.readDocument (some d.kind)).on (.ofBytes _) = .ok d :=
    c.readDocument_marshalled hdefects hversion hmarshal hsize hdepth (by simp)
  have hinferred : (c.readDocument none).on (.ofBytes _) = .ok d :=
    c.readDocument_marshalled hdefects hversion hmarshal hsize hdepth (by simp)
  exact ⟨construct_restores hlazy hexpected hmarshal sur,
    constructResolving_restores hlazy hexpected hmarshal sur resolver,
    constructResolving_restores hlazy hinferred hmarshal sur resolver⟩

/-- A set with a policy and a reference, whose texts have characters that are escaped or take more
than a byte. -/
def sampleSet : PolicySet :=
  ((PolicySet.new "é" "first").withPolicy ((Policy.new "p" "a").withDescription "\"\n")).withReference
    .policy ⟨"q", some "1.+", none, none⟩

theorem construct_marshalled_sampleSet :
    ∃ bytes, (PolicyDocument.policySet sampleSet).marshal = .ok bytes ∧
      ∀ (sur : Surroundings Unit Empty Unit) (resolver : Unit),
        Restores (((default.toConstructor sur).construct .policySet).on (.ofBytes bytes))
          (.policySet sampleSet) bytes ∧
        Restores
          (((default.toConstructor sur).constructWithResolver .policySet resolver).on
            (.ofBytes bytes)) (.policySet sampleSet) bytes ∧
        Restores (((default.toConstructor sur).constructInferred resolver).on (.ofBytes bytes))
          (.policySet sampleSet) bytes := by
  have hdefects : (PolicyDocument.policySet sampleSet).defects = [] := by decide +kernel
  have hsize : (Text.Utf8.encode
      (PolicyDocument.policySet sampleSet).toNode.envelope.chars).length ≤ 4096 := by decide +kernel
  obtain ⟨bytes, hmarshal, hrestores⟩ := construct_marshalled (R := Unit) (X := Empty) (σ := Unit)
    (c := default) (v := ⟨[1, 0]⟩) rfl hdefects rfl
  refine ⟨bytes, hmarshal, hrestores ?_ (by decide +kernel)⟩
  rw [PolicyDocument.marshal_eq_ok hdefects, Json.Value.toList_text] at hmarshal
  rw [← Except.ok.inj hmarshal]
  exact Nat.le_trans hsize (by decide)

end StandardConstructor

end AccessPolicy
