import AccessPolicy.Document.Reading
import AccessPolicy.Proofs.Grammar.DocumentOrder

namespace AccessPolicy.PolicyDocument

/-- The defect is what is reported of a document, when it is written as well as when it is read. -/
def Reports (d : PolicyDocument) (e : Defect) : Prop :=
  d.marshal = .error (.incomplete e) ∧ d.validate = .error (.incomplete e)

theorem reports_iff {d : PolicyDocument} {e : Defect} :
    d.Reports e ↔ d.toNode.defects.head? = some e := by
  rw [Reports, ← marshal_toNode, Node.marshal_eq_error_iff]
  refine and_iff_left_of_imp fun h => ?_
  obtain ⟨rest, hdefects⟩ := List.head?_eq_some_iff.1 h
  rw [validate, ← defects_toNode, hdefects]

/-- What is reported of a document is its first violation in document order. The order is that in
which fields are declared, for they are written in it, and lists are walked by position. A document
without a violation is accepted. The exception is an assignment that lacks both its type and its
identifier: the type is declared first, but the identifier is reported. -/
theorem reports_first (d : PolicyDocument) :
    (∀ (n : Node) members,
      n.payload = .object members → members = n.fields.flatMap Field.members) ∧
    ((∃ bytes, d.marshal = .ok bytes) ↔ ∀ p m e, ¬ d.toNode.Violation p m e) ∧
    ∀ e, d.Reports e ↔ ∃ p m e', d.toNode.First p m e' ∧ m.reported e' = e := by
  have hreports {e : Defect} (h : d.Reports e) :
      ∃ p m e', d.toNode.First p m e' ∧ m.reported e' = e :=
    Node.exists_first (reports_iff.1 h)
  have hdefect {p : List Nat} {m : Node} {e : Defect} (h : d.toNode.Violation p m e) :
      ∃ e', d.Reports e' := by
    obtain ⟨e', rest, hdefects⟩ := List.exists_cons_of_ne_nil h.defects_ne_nil
    exact ⟨e', reports_iff.2 (by rw [hdefects]; rfl)⟩
  refine ⟨fun _ _ => Node.payload_eq_fields, ?_, fun e => ⟨hreports, ?_⟩⟩
  · rw [← marshal_toNode, Node.exists_marshal_eq_ok_iff]
    refine ⟨fun hnil p m e h => h.defects_ne_nil hnil, fun hnone => ?_⟩
    cases hdefects : d.toNode.defects with
    | nil => rfl
    | cons e rest =>
      obtain ⟨p, m, e', hfirst, -⟩ := Node.exists_first (n := d.toNode) (e := e)
        (by rw [hdefects]; rfl)
      exact absurd hfirst.violation (hnone p m e')
  · rintro ⟨p, m, e', hfirst, rfl⟩
    obtain ⟨e, he⟩ := hdefect hfirst.violation
    obtain ⟨p', m', e'', hfirst', rfl⟩ := hreports he
    obtain ⟨-, rfl, rfl⟩ := hfirst.unique hfirst'
    exact he

/-- A policy with an obligation whose assignment has neither a type nor an identifier. -/
def unassigned : Policy :=
  (Policy.new "p" "a").withObligation ⟨"o", .permit, [⟨"", "", "v"⟩]⟩

theorem eq_assignment_of_occursIn {m : Node} (h : m.OccursIn (.policy unassigned))
    (hkind : m.kind = .attributeAssignment) : m = .assignment ⟨"", "", "v"⟩ := by
  cases h with
  | itself => cases hkind
  | inside hc h =>
    obtain rfl := List.mem_singleton.1 hc
    cases h with
    | itself => cases hkind
    | inside hc h =>
      obtain rfl := List.mem_singleton.1 hc
      cases h with
      | itself => cases hkind
      | inside hc h =>
        obtain rfl := List.mem_singleton.1 hc
        cases h with
        | itself => rfl
        | inside hc => cases hc

/-- The type of an assignment that lacks both comes first, and the identifier is reported. -/
theorem dataType_passed_over :
    (policy unassigned).Reports (.blankText .attributeAssignment "AttributeId") ∧
      ∀ p m, ¬ (policy unassigned).toNode.First p m
        (.blankText .attributeAssignment "AttributeId") := by
  refine ⟨reports_iff.2 (by decide), fun p m h => ?_⟩
  obtain rfl := eq_assignment_of_occursIn h.violation.occursIn (h.violation.kind_eq rfl)
  exact absurd (h.eq_dataType (by decide)) (by decide)

end AccessPolicy.PolicyDocument
