import AccessPolicy.Proofs.Construction.Resolving
import AccessPolicy.Proofs.Construction.RoundTrip
import AccessPolicy.Proofs.Document.Depth

namespace AccessPolicy

open Json

namespace StandardConstructor

variable {R X σ : Type} [DecidableEq R] {c : StandardConstructor} {sur : Surroundings R X σ}
  {answers : Answers R X}

theorem accepted_of_readDocument {input : ByteStream} {expected : Option ArtifactKind}
    {d : PolicyDocument} (h : (c.readDocument expected).on input = .ok d) :
    ∃ taken, (readBytes c.maxDocumentBytes).on input = .ok taken ∧
      PolicyDocument.read expected taken = .ok d := by
  rw [on_readDocument] at h
  exact bind_eq_ok_iff.1 h

theorem exists_version_of_readDocument {input : ByteStream} {expected : Option ArtifactKind}
    {d : PolicyDocument} (h : (c.readDocument expected).on input = .ok d) :
    ∃ v, Version.parse d.version = .ok v := by
  obtain ⟨taken, -, htaken⟩ := accepted_of_readDocument h
  obtain ⟨-, hversion, -⟩ := PolicyDocument.accepted_of_read htaken
  exact hversion

/-- A document that an artifact was built for can be built for again, with the same resolver. -/
theorem exists_build_eq_ok (hgive : sur.Give answers) {d : PolicyDocument} {resolver : R}
    {w v w' : World R X σ} {a : Artifact R X} (hw : w.History sur) (hv : v.History sur)
    (h : c.build sur d (some (w.openSource resolver).1) (w.openSource resolver).2 = .ok a w') :
    ∃ v', c.build sur d (some (v.openSource resolver).1) (v.openSource resolver).2 =
      .ok (.standard d (some (v.openSource resolver).1)) v' := by
  obtain ⟨-, hworld⟩ := build_eq_ok_iff.1 h
  simp only [build_eq_ok_iff, true_and]
  cases hmode : c.resolution with
  | lazy => exact ⟨_, rfl⟩
  | eager =>
    rw [hmode] at hworld
    have hmeanings := (resolveAll_eq_ok_iff hgive ((hw.opened resolver).faithful hgive) _ _).1
      ⟨w', hworld⟩
    exact (resolveAll_eq_ok_iff hgive ((hv.opened resolver).faithful hgive) _ _).2 hmeanings

/-- Canonicalizing never makes a document that would be refused. Whatever stream is accepted, in
whatever form its document is written, the artifact is marshalled, and what is written is nested no
deeper than the stream. If it is not too large, it is accepted in turn, at any later time, as the
same document, which is marshalled to the same bytes. -/
theorem constructInferred_canonical (hgive : sur.Give answers) {input : ByteStream} {resolver : R}
    {a : Artifact R X} {w w' : World R X σ} (hw : w.History sur)
    (h : ((c.toConstructor sur).constructInferred resolver).on input w = .ok a w') :
    ∃ bytes, a.marshal = .ok bytes ∧ nesting bytes ≤ nesting input.bytes ∧
      (bytes.length ≤ c.maxDocumentBytes.toNat → ∀ v : World R X σ, v.History sur →
        ∃ b v', ((c.toConstructor sur).constructInferred resolver).on (.ofBytes bytes) v = .ok b v' ∧
          b.document = a.document ∧ b.marshal = .ok bytes) := by
  obtain ⟨d, hdocument, hbuild⟩ := constructResolving_eq_ok_iff.1 h
  obtain ⟨rfl, -⟩ := build_eq_ok_iff.1 hbuild
  obtain ⟨taken, htaken, hread⟩ := accepted_of_readDocument hdocument
  obtain ⟨rest, hstream⟩ := exists_bytes_of_readBytes htaken
  obtain ⟨hdefects, ⟨version, hversion⟩, hlimit, hdepth⟩ := PolicyDocument.accepted_of_read hread
  have hmarshal := PolicyDocument.marshal_eq_ok hdefects
  have hnesting := PolicyDocument.nesting_marshalled hmarshal
  refine ⟨_, hmarshal, ?_, fun hsize v hv => ?_⟩
  · rw [hnesting, hstream]
    exact hdepth rest
  · obtain ⟨v', hagain⟩ := exists_build_eq_ok hgive hw hv hbuild
    have hdocumentAgain : (c.readDocument none).on (.ofBytes _) = .ok d :=
      c.readDocument_marshalled hdefects hversion hmarshal hsize hlimit (by simp)
    exact ⟨_, v', constructResolving_eq_ok_iff.2 ⟨d, hdocumentAgain, hagain⟩, rfl, hmarshal⟩

/-- Nothing is found. -/
def silentSurroundings : Surroundings Unit Empty Unit where
  lookUp _ id pattern := outcomeIn (.error (.notFound id (pattern.map VersionPattern.source)))
  decide x := nomatch x

/-- The first fields of a policy, in a form in which none is ever written. -/
def positionalFields : Value :=
  .array [.string "p", .string "1.0", .string "a"]

@[irreducible] def positionalBytes : List UInt8 :=
  Text.Utf8.encode (Value.object
    [("xmlns", .string policyNamespace), (ArtifactKind.policy.name, positionalFields)]).text.toList

theorem length_positionalBytes : positionalBytes.length ≤ 100 := by decide +kernel

theorem read_positional :
    PolicyDocument.read none positionalBytes = .ok (.policy (Policy.new "p" "a")) := by
  have hlegible : positionalFields.Legible := by
    simp [positionalFields, Value.legible_array, Value.legible_string]
  have hdecode : PolicyDocument.decodeRoot .policy positionalFields.sorted =
      .ok (.policy (Policy.new "p" "a")) := rfl
  unfold positionalBytes
  rw [PolicyDocument.read_written hlegible (by decide) hdecode (by simp)]
  rfl

def eagerConstructor : StandardConstructor := ⟨.eager, 4096⟩

theorem construct_positional (sur : Surroundings Unit Empty Unit) (w : World Unit Empty Unit) :
    ((eagerConstructor.toConstructor sur).constructInferred ()).on (.ofBytes positionalBytes) w =
      .ok (.standard (.policy (Policy.new "p" "a")) (some (w.openSource ()).1))
        (w.openSource ()).2 := by
  have hsize : positionalBytes.length ≤ eagerConstructor.maxDocumentBytes.toNat :=
    Nat.le_trans length_positionalBytes (by decide)
  have hread : (eagerConstructor.readDocument none).on (.ofBytes positionalBytes) =
      .ok (.policy (Policy.new "p" "a")) := by
    rw [on_readDocument, readBytes_ofBytes hsize, Except.bind, read_positional]
  exact constructResolving_eq_ok_iff.2 ⟨_, hread, rfl⟩

/-- In eager mode as well, an array is written as an object, and that object is accepted. -/
theorem constructInferred_canonical_positional :
    ∃ bytes, (PolicyDocument.policy (Policy.new "p" "a")).marshal = .ok bytes ∧
      nesting bytes ≤ nesting positionalBytes ∧
      (bytes.length ≤ eagerConstructor.maxDocumentBytes.toNat → ∃ b v',
        ((eagerConstructor.toConstructor silentSurroundings).constructInferred ()).on (.ofBytes bytes)
          (.new ()) = .ok b v' ∧
        b.document = .policy (Policy.new "p" "a") ∧ b.marshal = .ok bytes) := by
  have hgive : silentSurroundings.Give fun _ id pattern =>
      .error (.notFound id (pattern.map VersionPattern.source)) := fun _ _ _ _ => rfl
  obtain ⟨bytes, hmarshal, hnesting, hagain⟩ :=
    constructInferred_canonical hgive (.new ()) (construct_positional silentSurroundings (.new ()))
  exact ⟨bytes, hmarshal, hnesting, fun hsize => hagain hsize (.new ()) (.new ())⟩

end StandardConstructor

end AccessPolicy
