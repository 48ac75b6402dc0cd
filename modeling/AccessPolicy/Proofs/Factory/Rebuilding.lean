import AccessPolicy.Construction.Factory
import AccessPolicy.Proofs.Construction.Refusal

namespace AccessPolicy

open Json

/-- Of the bytes of a complete document only the version can be at fault, if they are not nested too
deep. -/
theorem PolicyDocument.read_of_marshal {d : PolicyDocument} {bytes : List UInt8}
    {expected : Option ArtifactKind} (hdefects : d.defects = []) (hmarshal : d.marshal = .ok bytes)
    (hdepth : nesting bytes ≤ Reader.maxDepth) (hkind : ∀ k ∈ expected, k = d.kind) :
    read expected bytes =
      match Version.parse d.version with
      | .error e => .error (.schema (.invalidVersion d.id e))
      | .ok _ => .ok d := by
  rw [nesting_marshalled hmarshal] at hdepth
  obtain rfl := PolicyDocument.eq_encode_of_marshal hmarshal
  rw [read_envelope hdepth hkind, validate, hdefects]
  cases Version.parse d.version <;> rfl

namespace StandardConstructor

/-- What comes of a complete document that has been written as the bytes, and whose references have
no resolver. -/
def rebuilt (c : StandardConstructor) (d : PolicyDocument) (bytes : List UInt8) :
    Except ConstructionError PolicyDocument :=
  if c.maxDocumentBytes.toNat < bytes.length then .error (.tooLarge c.maxDocumentBytes)
  else if Reader.maxDepth < nesting bytes then .error (.malformed .malformed)
  else
    match Version.parse d.version with
    | .error e => .error (.schema (.invalidVersion d.id e))
    | .ok _ =>
      match c.resolution, d.references with
      | .eager, r :: _ => .error (.resolution (.noResolver r.target.value))
      | _, _ => .ok d

variable {R X σ : Type} [DecidableEq R] {c : StandardConstructor} {sur : Surroundings R X σ}

/-- Without a source nothing is asked for, so only the first reference can be reported. -/
theorem build_without_source (d : PolicyDocument) (w : World R X σ) :
    c.build sur d none w =
      match c.resolution, d.references with
      | .eager, r :: _ => .error (.resolution (.noResolver r.target.value)) w
      | _, _ => .ok (.standard d none) w := by
  unfold build
  cases c.resolution with
  | lazy => rfl
  | eager => cases d.references <;> rfl

theorem construct_of_marshal {d : PolicyDocument} {bytes : List UInt8} (hdefects : d.defects = [])
    (hmarshal : d.marshal = .ok bytes)
    (hcount : c.maxDocumentBytes.toNat + 1 < UInt64.size ∨ bytes.length < UInt64.size)
    (w : World R X σ) :
    (c.construct sur d.kind).on (.ofBytes bytes) w =
      outcomeIn ((c.rebuilt d bytes).map fun d => .standard d none) w := by
  rw [on_construct, on_readDocument, rebuilt]
  by_cases hlarge : c.maxDocumentBytes.toNat < bytes.length
  · rw [readBytes_of_tooLarge hlarge hcount, if_pos hlarge]
    rfl
  rw [readBytes_ofBytes (Nat.le_of_not_lt hlarge), if_neg hlarge, Except.bind]
  by_cases hdeep : Reader.maxDepth < nesting bytes
  · rw [Node.read_tooDeep (d.marshal_toNode.trans hmarshal) hdeep, if_pos hdeep]
    rfl
  rw [PolicyDocument.read_of_marshal hdefects hmarshal (Nat.le_of_not_lt hdeep) (by simp),
    if_neg hdeep]
  cases Version.parse d.version with
  | error e => rfl
  | ok v =>
    simp only [build_without_source]
    split <;> rfl

end StandardConstructor

namespace Factory

variable {R X σ : Type}

/-- Builds an artifact from a policy or a set. -/
def createFrom (f : Factory R X σ) : PolicyDocument → Constructing R X σ (Artifact R X)
  | .policy p => f.createPolicyFrom p
  | .policySet s => f.createPolicySetFrom s

theorem createFrom_of_defect {d : PolicyDocument} {e : Defect} {rest : List Defect}
    (h : d.defects = e :: rest) (f : Factory R X σ) :
    f.createFrom d = throw (.marshal (.incomplete e)) := by
  have hmarshal : d.marshal = .error (.incomplete e) := by
    rw [PolicyDocument.marshal, h]
    rfl
  cases d with
  | policy p => simp only [createFrom, createPolicyFrom, hmarshal]
  | policySet s => simp only [createFrom, createPolicySetFrom, hmarshal]

theorem createFrom_of_marshal {d : PolicyDocument} {bytes : List UInt8}
    (h : d.marshal = .ok bytes) (f : Factory R X σ) :
    f.createFrom d = (f.active.construct d.kind).on (.ofBytes bytes) := by
  cases d with
  | policy p =>
    simp only [createFrom, createPolicyFrom, h]
    rfl
  | policySet s =>
    simp only [createFrom, createPolicySetFrom, h]
    rfl

/-- Building an artifact from a policy or a set in memory with a standard constructor. An incomplete
one is refused with its first defect. A complete one is written, and then the limit of size, the
limit of nesting, the version and, in eager mode, the first reference are looked at in this order;
if none of them is at fault, the artifact is for the same policy or set. Only the largest limit
takes it for granted that a word can count the bytes, as it can in any memory. -/
theorem createFrom_outcome [DecidableEq R] {f : Factory R X σ} {c : StandardConstructor}
    {sur : Surroundings R X σ} (hactive : f.active = c.toConstructor sur) (d : PolicyDocument)
    (w : World R X σ) :
    (∀ e rest, d.defects = e :: rest →
      f.createFrom d w = .error (.marshal (.incomplete e)) w) ∧
    (d.defects = [] → ∃ bytes, d.marshal = .ok bytes ∧
      (c.maxDocumentBytes.toNat + 1 < UInt64.size ∨ bytes.length < UInt64.size →
        f.createFrom d w =
          outcomeIn ((c.rebuilt d bytes).map fun d => .standard d none) w)) := by
  refine ⟨fun e rest h => ?_, fun hdefects => ?_⟩
  · rw [createFrom_of_defect h]
    rfl
  · have hmarshal := PolicyDocument.marshal_eq_ok hdefects
    refine ⟨_, hmarshal, fun hcount => ?_⟩
    rw [createFrom_of_marshal hmarshal, hactive]
    exact StandardConstructor.construct_of_marshal hdefects hmarshal hcount w

open StandardConstructor in
/-- An eager constructor refuses a complete set for the reference in it. -/
theorem createFrom_outcome_sampleSet :
    (⟨.empty, eagerConstructor.toConstructor silentSurroundings⟩ :
      Factory Unit Empty Unit).createPolicySetFrom sampleSet (.new ()) =
        .error (.resolution (.noResolver "q")) (.new ()) := by
  obtain ⟨-, hcomplete⟩ := createFrom_outcome
    (f := ⟨.empty, eagerConstructor.toConstructor silentSurroundings⟩) rfl (.policySet sampleSet)
    (.new ())
  obtain ⟨bytes, hmarshal, houtcome⟩ := hcomplete (by decide +kernel)
  have hsize : (Text.Utf8.encode
      (PolicyDocument.policySet sampleSet).toNode.envelope.chars).length ≤ 4096 := by
    decide +kernel
  rw [← Json.Value.toList_text, ← PolicyDocument.eq_encode_of_marshal hmarshal] at hsize
  have hlimit : bytes.length ≤ eagerConstructor.maxDocumentBytes.toNat :=
    Nat.le_trans hsize (by decide)
  have hnesting : nesting bytes ≤ Reader.maxDepth := by
    rw [PolicyDocument.nesting_marshalled hmarshal]
    decide +kernel
  refine (houtcome (.inl (by decide))).trans ?_
  rw [rebuilt, if_neg (Nat.not_lt.2 hlimit), if_neg (Nat.not_lt.2 hnesting)]
  rfl

end Factory

end AccessPolicy
