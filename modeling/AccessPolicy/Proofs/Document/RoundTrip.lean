import AccessPolicy.Document.Marshal
import AccessPolicy.Document.Reading
import AccessPolicy.Proofs.Grammar.Policy
import AccessPolicy.Proofs.Text.Utf8

namespace AccessPolicy

open Json

theorem beginning?_tokens_object (ms : List (String × Value)) :
    (Value.object ms).tokens.head?.bind Token.beginning? = some (.object []) := by
  rcases ms with _ | ⟨⟨key, v⟩, ms⟩ <;> simp [Value.tokens, Token.beginning?]

theorem readMembers_text {ms : List (String × Value)} (hlegible : LegibleFields ms)
    (hdepth : (Value.object ms).depth ≤ Reader.maxDepth) :
    readMembers (Text.Utf8.encode (Value.object ms).text.toList) =
      .ok (sortMembers (Value.sortedMembers ms).reverse) := by
  have hobject := Value.legible_object.2 hlegible
  have hread := Value.readWithin_chars hobject hdepth
  rw [readWithin, Value.scan_chars hobject] at hread
  rw [readMembers, Text.Utf8.decode_encode, Value.toList_text]
  simp only [Value.scan_chars hobject, beginning?_tokens_object, hread, Value.sorted]

/-- The members of an envelope, as they are read. -/
theorem envelope_perm {name : String} (hname : name ≠ "xmlns") (payload : Value) :
    (sortMembers
      (Value.sortedMembers [("xmlns", .string policyNamespace), (name, payload)]).reverse).Perm
        [(name, payload.sorted), ("xmlns", .string policyNamespace)] := by
  apply sortMembers_perm
  simp [Value.sortedMembers, hname]

/-- The document names the node by its kind. -/
theorem Node.envelope_eq (n : Node) :
    n.envelope = .object [("xmlns", .string policyNamespace), (n.kind.localName, n.payload)] := by
  rw [envelope, envelopeOf, tag_eq]

theorem checkNamespace_envelope {name : String} (hname : name ≠ "xmlns") (payload : Value) :
    checkNamespace (sortMembers
      (Value.sortedMembers [("xmlns", .string policyNamespace), (name, payload)]).reverse) =
        .ok [(name, payload.sorted)] := by
  have hnamespace : member? "xmlns" (sortMembers
      (Value.sortedMembers [("xmlns", .string policyNamespace), (name, payload)]).reverse) =
        some (.string policyNamespace) := by
    rw [lookup_sorted]
    simp [Ne.symm hname, Value.sorted]
  have hothers := (envelope_perm hname payload).filter fun m => decide (m.1 ≠ "xmlns")
  have hroot : [(name, payload.sorted), ("xmlns", Value.string policyNamespace)].filter
      (fun m => decide (m.1 ≠ "xmlns")) = [(name, payload.sorted)] := by
    simp [hname]
  rw [hroot, List.perm_singleton] at hothers
  rw [checkNamespace, hnamespace]
  simp only [if_true, hothers]

theorem findRoot_singleton (kind : ArtifactKind) (body : Value) :
    findRoot [(kind.name, body)] = .ok (kind, body) := by
  cases kind <;> rfl

theorem mapError_ok (f : ε → δ) (a : α) : (Except.ok a : Except ε α).mapError f = .ok a := rfl

namespace PolicyDocument

/-- A document is written under the name of its kind. -/
theorem tag_eq (d : PolicyDocument) : d.tag = d.kind.name := by
  cases d <;> rfl

theorem payload_denotes (d : PolicyDocument) : d.payload.Denotes (decodeRoot d.kind) d := by
  cases d with
  | policy p => exact p.denotes.map policy
  | policySet s => exact s.denotes.map policySet

theorem marshal_eq_ok {d : PolicyDocument} (h : d.defects = []) :
    d.marshal = .ok (Text.Utf8.encode d.toNode.envelope.text.toList) := by
  rw [marshal, h, Node.envelope, tag_toNode, payload_toNode]
  rfl

theorem validate_eq_ok_iff {d : PolicyDocument} :
    d.validate = .ok () ↔ d.defects = [] ∧ ∃ v, Version.parse d.version = .ok v := by
  unfold validate
  cases d.defects with
  | cons e rest => simp
  | nil => cases Version.parse d.version <;> simp

/-- Of a written object that names the namespace and the root, only the document that the root
decodes to can be at fault. -/
theorem read_written {kind : ArtifactKind} {payload : Value} {d : PolicyDocument}
    {expected : Option ArtifactKind} (hlegible : payload.Legible)
    (hdepth : (Value.object [("xmlns", .string policyNamespace), (kind.name, payload)]).depth ≤
      Reader.maxDepth)
    (hdecode : decodeRoot kind payload.sorted = .ok d) (hkind : ∀ k ∈ expected, k = kind) :
    read expected (Text.Utf8.encode
      (Value.object [("xmlns", .string policyNamespace), (kind.name, payload)]).text.toList) =
        (d.validate.mapError .schema).map fun _ => d := by
  have hname : kind.name ≠ "xmlns" := by cases kind <;> decide
  have hmembers := readMembers_text (by simpa [Value.legible_string] using hlegible) hdepth
  rw [read, hmembers]
  simp only [mapError_ok, checkNamespace_envelope hname, findRoot_singleton, bind, Except.bind,
    hdecode]
  cases expected with
  | none => cases d.validate <;> rfl
  | some k =>
    obtain rfl := hkind k rfl
    simp only [ne_eq, not_true, if_false]
    cases d.validate <;> rfl

/-- What is written for a document is read as that document, unless it has a fault. -/
theorem read_envelope {d : PolicyDocument} {expected : Option ArtifactKind}
    (hdepth : d.toNode.envelope.depth ≤ Reader.maxDepth) (hkind : ∀ k ∈ expected, k = d.kind) :
    read expected (Text.Utf8.encode d.toNode.envelope.text.toList) =
      (d.validate.mapError .schema).map fun _ => d := by
  have hpayload := d.payload_denotes
  rw [Node.envelope, tag_toNode, payload_toNode, d.tag_eq] at hdepth ⊢
  exact read_written hpayload.legible hdepth hpayload.decode_sorted hkind

/-- Reading undoes marshalling, whether or not the kind of the document is expected. -/
theorem read_marshalled {d : PolicyDocument} {v : Version} {expected : Option ArtifactKind}
    (hdefects : d.defects = []) (hversion : Version.parse d.version = .ok v)
    (hdepth : d.toNode.envelope.depth ≤ Reader.maxDepth) (hkind : ∀ k ∈ expected, k = d.kind) :
    read expected (Text.Utf8.encode d.toNode.envelope.text.toList) = .ok d := by
  rw [read_envelope hdepth hkind, validate_eq_ok_iff.2 ⟨hdefects, v, hversion⟩]
  rfl

end PolicyDocument

end AccessPolicy
