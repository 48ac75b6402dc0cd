import AccessPolicy.Proofs.Document.RoundTrip
import AccessPolicy.Proofs.Grammar.Depth
import AccessPolicy.Proofs.Grammar.Node
import AccessPolicy.Proofs.Json.Front

namespace AccessPolicy

open Json

theorem exists_of_readMembers_eq_ok {bytes : List UInt8} {members : List (String × Value)}
    (h : readMembers bytes = .ok members) :
    ∃ cs, Text.Utf8.decode bytes = (cs, []) ∧ Json.read cs = some (.object members) := by
  rcases hdecode : Text.Utf8.decode bytes with ⟨cs, rest⟩
  simp only [readMembers, hdecode] at h
  split at h
  · split at h
    · next ms hread =>
      obtain rfl := Except.ok.inj h
      exact ⟨cs, rfl, hread⟩
    · cases h
  · cases h
  · cases h

theorem checkNamespace_eq_ok {members others : List (String × Value)}
    (h : checkNamespace members = .ok others) :
    others = members.filter fun m => m.1 ≠ "xmlns" := by
  unfold checkNamespace at h
  split at h
  · cases h
  · split at h
    · exact (Except.ok.inj h).symm
    · cases h
  · cases h

theorem findRoot_eq_ok {others : List (String × Value)} {kind : ArtifactKind} {body : Value}
    (h : findRoot others = .ok (kind, body)) : ∃ name, others = [(name, body)] := by
  unfold findRoot at h
  split at h
  · cases h
  · next name v =>
    split at h
    · obtain ⟨-, rfl⟩ := Prod.mk.inj (Except.ok.inj h)
      exact ⟨name, rfl⟩
    · split at h <;> cases h
  · cases h

/-- The root stands below the object that the text is. -/
theorem depth_lt_of_root {members others : List (String × Value)} {kind : ArtifactKind}
    {body : Value} (hothers : checkNamespace members = .ok others)
    (hroot : findRoot others = .ok (kind, body)) : body.depth < (Value.object members).depth := by
  obtain rfl := checkNamespace_eq_ok hothers
  obtain ⟨name, hname⟩ := findRoot_eq_ok hroot
  have hfiltered : (name, body) ∈ members.filter fun m => m.1 ≠ "xmlns" := by
    rw [hname]
    exact List.mem_singleton_self (name, body)
  exact Nat.lt_succ_of_le (Value.depth_le_depthMembers (List.mem_filter.1 hfiltered).1)

namespace Node

theorem legible_envelope (n : Node) : n.envelope.Legible := by
  rw [envelope_eq, Value.legible_object]
  simpa [Value.legible_string] using n.payload_denotes.legible

theorem eq_encode_of_marshal {n : Node} {bytes : List UInt8} (h : n.marshal = .ok bytes) :
    bytes = Text.Utf8.encode n.envelope.text.toList := by
  rw [marshal] at h
  obtain ⟨_, -, hbytes⟩ := bind_eq_ok_iff.1 h
  exact (Except.ok.inj hbytes).symm

/-- The bytes of a node are nested as deep as its envelope. -/
theorem nesting_marshalled {n : Node} {bytes : List UInt8} (h : n.marshal = .ok bytes) :
    nesting bytes = n.envelope.depth := by
  rw [eq_encode_of_marshal h, nesting_text n.legible_envelope]

end Node

namespace PolicyDocument

theorem depth_envelope (d : PolicyDocument) :
    d.toNode.envelope.depth = d.toNode.payload.depth + 1 := by
  simp [Node.envelope, envelopeOf, Value.depth, Value.depthMembers]

theorem depth_payload_le {kind : ArtifactKind} {body : Value} {d : PolicyDocument}
    (h : decodeRoot kind body = .ok d) : d.toNode.payload.depth ≤ body.depth := by
  have hbelow := Nat.lt_succ_self body.depth
  cases kind with
  | policy =>
    obtain ⟨p, hp, rfl⟩ := map_eq_ok_iff.1 h
    exact Policy.noDeeper body p hbelow hp
  | policySet =>
    obtain ⟨s, hs, rfl⟩ := map_eq_ok_iff.1 h
    exact PolicySet.noDeeper body s hbelow hs

/-- What reading makes of the bytes, step by step. -/
theorem read_eq_ok {expected : Option ArtifactKind} {bytes : List UInt8} {d : PolicyDocument}
    (h : read expected bytes = .ok d) :
    ∃ members others kind body, readMembers bytes = .ok members ∧
      checkNamespace members = .ok others ∧ findRoot others = .ok (kind, body) ∧
      decodeRoot kind body = .ok d ∧ d.validate = .ok () := by
  unfold read at h
  obtain ⟨members, hmembers, h⟩ := bind_eq_ok_iff.1 h
  obtain ⟨others, hothers, h⟩ := bind_eq_ok_iff.1 h
  obtain ⟨⟨kind, body⟩, hroot, h⟩ := bind_eq_ok_iff.1 h
  have hrest : (do
      let document ← (decodeRoot kind body).mapError fun e => .malformed (.undecodable e)
      document.validate.mapError .schema
      return document : Except ConstructionError PolicyDocument) = .ok d := by
    cases expected with
    | none => exact h
    | some e =>
      by_cases hkind : e = kind
      · simpa only [hkind, ne_eq, not_true, if_false] using h
      · simp [hkind, throw, throwThe, MonadExceptOf.throw, bind, Except.bind] at h
  obtain ⟨document, hdocument, hrest⟩ := bind_eq_ok_iff.1 hrest
  obtain ⟨⟨⟩, hvalid, hdone⟩ := bind_eq_ok_iff.1 hrest
  obtain rfl : document = d := Except.ok.inj hdone
  exact ⟨members, others, kind, body, mapError_eq_ok_iff.1 hmembers, mapError_eq_ok_iff.1 hothers,
    mapError_eq_ok_iff.1 hroot, mapError_eq_ok_iff.1 hdocument, mapError_eq_ok_iff.1 hvalid⟩

/-- An accepted document is complete and has a version. Its envelope keeps to the limit of the
reader and is nested no deeper than the bytes that it was read from, whatever follows them. -/
theorem accepted_of_read {expected : Option ArtifactKind} {bytes : List UInt8}
    {d : PolicyDocument} (h : read expected bytes = .ok d) :
    d.defects = [] ∧ (∃ v, Version.parse d.version = .ok v) ∧
      d.toNode.envelope.depth ≤ Reader.maxDepth ∧
      ∀ more, d.toNode.envelope.depth ≤ nesting (bytes ++ more) := by
  obtain ⟨members, others, kind, body, hmembers, hothers, hroot, hdocument, hvalid⟩ := read_eq_ok h
  obtain ⟨hdefects, hversion⟩ := validate_eq_ok_iff.1 hvalid
  obtain ⟨cs, hdecode, hread⟩ := exists_of_readMembers_eq_ok hmembers
  obtain ⟨hdepth, hlimit⟩ := depth_le_nesting_of_read hdecode hread
  have hpayload := depth_payload_le hdocument
  have hbody := depth_lt_of_root hothers hroot
  have henvelope := d.depth_envelope
  refine ⟨hdefects, hversion, by omega, fun more => ?_⟩
  have hmore := nesting_le_append hdecode hread more
  omega

theorem eq_encode_of_marshal {d : PolicyDocument} {bytes : List UInt8}
    (h : d.marshal = .ok bytes) : bytes = Text.Utf8.encode d.toNode.envelope.text.toList :=
  Node.eq_encode_of_marshal (d.marshal_toNode.trans h)

/-- The bytes of a document are nested as deep as its envelope. -/
theorem nesting_marshalled {d : PolicyDocument} {bytes : List UInt8}
    (h : d.marshal = .ok bytes) : nesting bytes = d.toNode.envelope.depth :=
  Node.nesting_marshalled (d.marshal_toNode.trans h)

end PolicyDocument

end AccessPolicy
