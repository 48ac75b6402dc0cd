import AccessPolicy.Proofs.Construction.Canonical
import AccessPolicy.Proofs.Document.Elements
import AccessPolicy.Proofs.Grammar.Kind

namespace AccessPolicy

open Json

variable {R X σ : Type}

/-- Every construction from the input fails, whatever kind is asked for and whoever resolves, and
leaves the world as it was. -/
structure Constructor.Refuses (k : Constructor R X σ) (input : ByteStream) (e : ConstructionError) :
    Prop where
  construct : ∀ kind w, (k.construct kind).on input w = .error e w
  withResolver : ∀ kind resolver w, (k.constructWithResolver kind resolver).on input w = .error e w
  inferred : ∀ resolver w, (k.constructInferred resolver).on input w = .error e w

/-- A constructor refuses what it cannot read, whichever kind is expected. -/
theorem StandardConstructor.refuses_of_read [DecidableEq R] {c : StandardConstructor}
    {bytes : List UInt8} {e : ConstructionError} (hsize : bytes.length ≤ c.maxDocumentBytes.toNat)
    (hread : ∀ expected, PolicyDocument.read expected bytes = .error e)
    (sur : Surroundings R X σ) : (c.toConstructor sur).Refuses (.ofBytes bytes) e := by
  have hdocument : ∀ expected, (c.readDocument expected).on (.ofBytes bytes) = .error e := by
    intro expected
    rw [on_readDocument, readBytes_ofBytes hsize]
    exact hread expected
  constructor
  · intro kind w
    simp only [toConstructor, on_construct, hdocument]
    rfl
  · intro kind resolver w
    simp only [toConstructor, on_constructResolving, hdocument]
    rfl
  · intro resolver w
    simp only [toConstructor, on_constructResolving, hdocument]
    rfl

theorem ArtifactKind.ofName?_localName {k : ElementKind} (hpolicy : k ≠ .policy)
    (hset : k ≠ .policySet) : ofName? k.localName = none := by
  cases k <;> first | rfl | contradiction

theorem findRoot_notARoot {k : ElementKind} (hpolicy : k ≠ .policy) (hset : k ≠ .policySet)
    (body : Value) : findRoot [(k.localName, body)] = .error (.notARoot k.localName) := by
  have hknown : (ElementKind.ofLocalName? k.localName).isSome := by
    rw [ElementKind.ofLocalName?_localName]
    rfl
  simp only [findRoot, ArtifactKind.ofName?_localName hpolicy hset, hknown, if_true]

namespace Node

variable {n : Node} {bytes : List UInt8}

theorem read_notARoot (h : n.marshal = .ok bytes) (hpolicy : n.kind ≠ .policy)
    (hset : n.kind ≠ .policySet) (hdepth : nesting bytes ≤ Reader.maxDepth)
    (expected : Option ArtifactKind) :
    PolicyDocument.read expected bytes = .error (.schema (.notARoot n.kind.localName)) := by
  obtain ⟨members, hmembers, hothers, -⟩ := readMembers_marshalled h hdepth
  rw [PolicyDocument.read, hmembers]
  simp only [mapError_ok, Bind.bind, Except.bind, hothers, findRoot_notARoot hpolicy hset]
  rfl

theorem read_tooDeep (h : n.marshal = .ok bytes) (hdepth : Reader.maxDepth < nesting bytes)
    (expected : Option ArtifactKind) :
    PolicyDocument.read expected bytes = .error (.malformed .malformed) := by
  rw [PolicyDocument.read, readMembers_marshalled_of_tooDeep h hdepth]
  rfl

/-- Every node is read back from what is written for it, complete or not. The bytes that a node is
marshalled to are an object of two members, the namespace and the node under the name of its kind,
as far as the reader goes. No other node is marshalled to them. Unless the node is a policy or a
set, nothing is constructed from them: it is no root, or its bytes are nested too deep to tell. -/
theorem marshalled_reads_back [DecidableEq R] (n : Node) :
    (∃ v, readWithin n.encode.depth n.encode.chars = some v ∧ decode v = .ok n) ∧
    ∀ bytes, (QualifiedElement.of n).marshal = .ok bytes →
      (nesting bytes ≤ Reader.maxDepth →
        ∃ members payload, readMembers bytes = .ok members ∧
          members.Perm [("xmlns", .string policyNamespace), (n.kind.localName, payload)] ∧
          decode (.object [(n.kind.localName, payload)]) = .ok n) ∧
      (∀ m, (QualifiedElement.of m).marshal = .ok bytes → m = n) ∧
      (n.kind ≠ .policy → n.kind ≠ .policySet →
        ∀ (c : StandardConstructor) (sur : Surroundings R X σ),
          bytes.length ≤ c.maxDocumentBytes.toNat →
            (nesting bytes ≤ Reader.maxDepth → (c.toConstructor sur).Refuses (.ofBytes bytes)
              (.schema (.notARoot n.kind.localName))) ∧
            (Reader.maxDepth < nesting bytes → (c.toConstructor sur).Refuses (.ofBytes bytes)
              (.malformed .malformed))) := by
  refine ⟨⟨n.encode.sorted, Value.readWithin_chars n.denotes.legible (Nat.le_refl _),
    n.denotes.decode_sorted⟩, fun bytes hbytes => ⟨fun hdepth => ?_, fun m hm => ?_, ?_⟩⟩
  · obtain ⟨members, hmembers, -, hperm⟩ := readMembers_marshalled hbytes hdepth
    exact ⟨members, n.payload.sorted, hmembers, hperm, n.decode_member⟩
  · exact marshal_injective hm hbytes
  · intro hpolicy hset c sur hsize
    exact ⟨fun hdepth => c.refuses_of_read hsize (read_notARoot hbytes hpolicy hset hdepth) sur,
      fun hdepth => c.refuses_of_read hsize (read_tooDeep hbytes hdepth) sur⟩

/-- A description and an XPath version of the same text are written as different bytes, and nothing
is constructed from those of the description. -/
theorem marshalled_reads_back_description :
    ∃ bytes, (QualifiedElement.of (.description "1.0")).marshal = .ok bytes ∧
      (QualifiedElement.of (.xpathVersion "1.0")).marshal ≠ .ok bytes ∧
      (StandardConstructor.default.toConstructor StandardConstructor.silentSurroundings).Refuses
        (.ofBytes bytes) (.schema (.notARoot "Description")) := by
  have hmarshal : (QualifiedElement.of (.description "1.0")).marshal =
      .ok (Text.Utf8.encode (description "1.0").envelope.text.toList) := rfl
  have hsize : (Text.Utf8.encode (description "1.0").envelope.text.toList).length ≤ 4096 := by
    rw [Value.toList_text]
    decide +kernel
  have hdepth := nesting_marshalled hmarshal
  obtain ⟨-, hbytes⟩ := marshalled_reads_back (R := Unit) (X := Empty) (σ := Unit)
    (description "1.0")
  obtain ⟨-, hunique, hrefused⟩ := hbytes _ hmarshal
  refine ⟨_, hmarshal, fun hsame => ?_, ?_⟩
  · cases hunique (xpathVersion "1.0") hsame
  · refine (hrefused (by decide) (by decide) .default
      StandardConstructor.silentSurroundings ?_).1 ?_
    · exact Nat.le_trans hsize (by decide)
    · rw [hdepth]
      decide

end Node

end AccessPolicy
