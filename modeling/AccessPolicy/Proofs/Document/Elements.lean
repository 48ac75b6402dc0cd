import AccessPolicy.Proofs.Document.Depth

namespace AccessPolicy

open Json

theorem ElementKind.localName_ne_xmlns (k : ElementKind) : k.localName ≠ "xmlns" := by
  cases k <;> decide

/-- An object that is nested too deep is not taken for a text. -/
theorem readMembers_of_tooDeep {ms : List (String × Value)} (hlegible : LegibleFields ms)
    (hdepth : Reader.maxDepth < (Value.object ms).depth) :
    readMembers (Text.Utf8.encode (Value.object ms).text.toList) = .error .malformed := by
  have hobject := Value.legible_object.2 hlegible
  have hnesting := nesting_text hobject
  rw [nesting, Text.Utf8.decode_encode, Value.toList_text, Value.scan_chars hobject] at hnesting
  rw [readMembers, Text.Utf8.decode_encode, Value.toList_text]
  simp only [Value.scan_chars hobject, beginning?_tokens_object]
  split
  · next members hread _ =>
    obtain ⟨-, hlimit⟩ := Reader.depth_le_of_run hread
    omega
  · rfl

namespace Node

variable {m n : Node} {bytes : List UInt8}

theorem legible_fields (n : Node) :
    LegibleFields [("xmlns", .string policyNamespace), (n.kind.localName, n.payload)] :=
  Value.legible_object.1 (n.envelope_eq ▸ n.legible_envelope)

/-- Bytes that are not nested too deep are read as an object that names the namespace and holds the
node under the name of its kind. -/
theorem readMembers_marshalled (h : n.marshal = .ok bytes)
    (hdepth : nesting bytes ≤ Reader.maxDepth) :
    ∃ members, readMembers bytes = .ok members ∧
      checkNamespace members = .ok [(n.kind.localName, n.payload.sorted)] ∧
      members.Perm [("xmlns", .string policyNamespace), (n.kind.localName, n.payload.sorted)] := by
  rw [nesting_marshalled h] at hdepth
  obtain rfl := eq_encode_of_marshal h
  rw [envelope_eq] at hdepth ⊢
  have hname := n.kind.localName_ne_xmlns
  exact ⟨_, readMembers_text n.legible_fields hdepth, checkNamespace_envelope hname n.payload,
    (envelope_perm hname n.payload).trans (List.Perm.swap _ _ _)⟩

theorem readMembers_marshalled_of_tooDeep (h : n.marshal = .ok bytes)
    (hdepth : Reader.maxDepth < nesting bytes) : readMembers bytes = .error .malformed := by
  rw [nesting_marshalled h] at hdepth
  obtain rfl := eq_encode_of_marshal h
  rw [envelope_eq] at hdepth ⊢
  exact readMembers_of_tooDeep n.legible_fields hdepth

theorem sorted_envelope_eq (hm : m.marshal = .ok bytes) (hn : n.marshal = .ok bytes) :
    m.envelope.sorted = n.envelope.sorted := by
  have hbytes := (eq_encode_of_marshal hm).symm.trans (eq_encode_of_marshal hn)
  have hdecoded := congrArg Text.Utf8.decode hbytes
  simp only [Text.Utf8.decode_encode, Value.toList_text] at hdecoded
  have hchars : m.envelope.chars = n.envelope.chars := (Prod.mk.inj hdecoded).1
  have hread := Value.readWithin_chars m.legible_envelope
    (Nat.le_max_left m.envelope.depth n.envelope.depth)
  rw [hchars, Value.readWithin_chars n.legible_envelope (Nat.le_max_right _ _)] at hread
  exact (Option.some.inj hread).symm

/-- Different nodes are never marshalled to the same bytes, however deep they are nested. -/
theorem marshal_injective (hm : m.marshal = .ok bytes) (hn : n.marshal = .ok bytes) : m = n := by
  have hsorted := sorted_envelope_eq hm hn
  simp only [envelope_eq, Value.sorted] at hsorted
  have hmembers := checkNamespace_envelope m.kind.localName_ne_xmlns m.payload
  rw [Value.object.inj hsorted, checkNamespace_envelope n.kind.localName_ne_xmlns n.payload]
    at hmembers
  obtain ⟨hkind, hpayload⟩ := Prod.mk.inj (List.cons.inj (Except.ok.inj hmembers)).1
  exact (eq_of_payload_eq hkind hpayload).symm

end Node

end AccessPolicy
