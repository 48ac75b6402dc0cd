import AccessPolicy.Document.Marshal
import AccessPolicy.Proofs.Grammar.Written
import Mathlib.Data.List.Forall2

namespace AccessPolicy

open Json

/-- A place where a member of the expression group stands, and the kinds that may stand there. -/
structure Slot where
  admitted : List ElementKind
  occupant : Expression

/-- The value is an object that has, of the names of the kinds that may stand in the slot, that of
the occupant's own kind alone, and the payload of the occupant under it. -/
structure Slot.WrittenIn (s : Slot) (v : Value) : Prop where
  admits : s.occupant.kind ∈ s.admitted
  keyed : ∃ fields, v = .object fields ∧ ∀ k ∈ s.admitted, ∀ payload,
    (k.localName, payload) ∈ fields ↔ k = s.occupant.kind ∧ payload = s.occupant.payload

/-- The slots of an element, in document order. -/
def Node.slots : Node → List Slot
  | condition e => [⟨Expression.kinds, e⟩]
  | variableDefinition d => [⟨Expression.kinds, d.expression⟩]
  | targetMatch _ m => [⟨AttributeSource.kinds, .source m.source⟩]
  | apply _ arguments => arguments.map fun e => ⟨Expression.kinds, e⟩
  | _ => []

/-- The values in the payload of an element of kind `k` that its slots are written in. -/
def Json.Value.slotsUnder (k : ElementKind) (payload : Value) : List Value :=
  match k, payload with
  | .condition, v => [v]
  | .variableDefinition, v => [v]
  | .subjectMatch, v | .resourceMatch, v | .actionMatch, v | .environmentMatch, v => [v]
  | .apply, .object fields =>
    match member? "Content" fields with
    | some (.array items) => items
    | _ => []
  | _, _ => []

namespace Slot.WrittenIn

/-- The occupant may stand behind other fields, as long as none of them has a name of a kind that
may stand there. -/
theorem last {s : Slot} (ms : List (String × Value)) (hkind : s.occupant.kind ∈ s.admitted)
    (hothers : ∀ m ∈ ms, ∀ k ∈ s.admitted, k.localName ≠ m.1) :
    WrittenIn s (.object (ms ++ [(s.occupant.tag, s.occupant.payload)])) := by
  refine ⟨hkind, _, rfl, fun k hk payload => ?_⟩
  have hnone : (k.localName, payload) ∉ ms := fun h => hothers _ h k hk rfl
  simp [hnone, s.occupant.tag_eq, ElementKind.localName_inj]

theorem member (e : Expression) : WrittenIn ⟨Expression.kinds, e⟩ e.encode :=
  last [] e.kind_mem_kinds (List.forall_mem_nil _)

theorem definition (d : VariableDefinition) :
    WrittenIn ⟨Expression.kinds, d.expression⟩ d.encode := by
  have hkinds : ∀ k ∈ Expression.kinds, k.localName ≠ "VariableId" := by decide
  exact last _ d.expression.kind_mem_kinds (by simpa [textField] using hkinds)

theorem operand (m : TargetMatch) :
    WrittenIn ⟨AttributeSource.kinds, .source m.source⟩ m.encode := by
  have hkinds : ∀ k ∈ AttributeSource.kinds,
      k.localName ≠ "MatchId" ∧ k.localName ≠ "AttributeValue" := by decide
  have hlast := last (s := ⟨AttributeSource.kinds, .source m.source⟩)
    (textField "MatchId" m.matchId ++ [("AttributeValue", m.value.encode)])
    m.source.kind_mem_kinds fun f hf k hk => ?_
  · simpa [TargetMatch.encode, Expression.tag_source] using hlast
  simp only [textField, List.singleton_append, List.mem_cons, List.not_mem_nil, or_false] at hf
  obtain rfl | rfl := hf
  · exact (hkinds k hk).1
  · exact (hkinds k hk).2

end Slot.WrittenIn

/-- The items under `Content` are the arguments in order. -/
theorem Json.Value.slotsUnder_apply (functionId : String) (arguments : List Expression) :
    slotsUnder .apply (encodeApply functionId (Expression.encodeAll arguments)) =
      arguments.map Expression.encode := by
  rw [Expression.encodeAll_eq_map]
  cases arguments with
  | nil => rfl
  | cons e es => rfl

namespace Node

/-- Each slot of an element is written in its place in the payload of the element. -/
theorem slots_writtenIn (n : Node) :
    List.Forall₂ Slot.WrittenIn n.slots (Value.slotsUnder n.kind n.payload) := by
  cases n with
  | condition e => exact .cons (.member e) .nil
  | variableDefinition d => exact .cons (.definition d) .nil
  | targetMatch c m => cases c <;> exact .cons (.operand m) .nil
  | apply functionId arguments =>
    rw [slots, payload, kind, Value.slotsUnder_apply, List.forall₂_map_left_iff,
      List.forall₂_map_right_iff, List.forall₂_same]
    exact fun e _ => .member e
  | defaults holder d => cases holder <;> exact .nil
  | anyOf c alternatives => cases c <;> exact .nil
  | allOf c ms => cases c <;> exact .nil
  | scopedParameters s ps => cases s <;> exact .nil
  | reference kind r => cases kind <;> exact .nil
  | _ => exact .nil

theorem partOf_of_mem_slotsUnder {k : ElementKind} {payload v : Value}
    (h : v ∈ Value.slotsUnder k payload) : v.PartOf payload := by
  unfold Value.slotsUnder at h
  split at h
  -- Only an application has its slots in a list; elsewhere the payload is the slot itself.
  case h_7 =>
    split at h
    · next hcontent => exact .of_mem_list "Content" (mem_of_lookup hcontent) h .itself
    · cases h
  case h_8 => cases h
  all_goals
    obtain rfl := List.mem_singleton.1 h
    exact .itself

end Node

theorem ElementKind.substitutionHead_eq_some_iff {k : ElementKind} :
    k.substitutionHead = some .expression ↔ k.isExpression := by
  cases hk : k.isExpression <;> simp [substitutionHead, hk]

namespace Node

theorem isExpression_kind (n : Node) : n.kind.isExpression = n.expression?.isSome := by
  cases n with
  | defaults holder d => cases holder <;> rfl
  | anyOf c alternatives => cases c <;> rfl
  | allOf c ms => cases c <;> rfl
  | targetMatch c m => cases c <;> rfl
  | scopedParameters s ps => cases s <;> rfl
  | reference kind r => cases kind <;> rfl
  | _ => rfl

theorem substitutionHead_kind_iff (n : Node) :
    n.kind.substitutionHead = some .expression ↔ n.expression?.isSome := by
  rw [ElementKind.substitutionHead_eq_some_iff, isExpression_kind]

theorem isSubstitutableFor_expression_iff (n : Node) :
    (QualifiedElement.of n).isSubstitutableFor .expression ↔ n.expression?.isSome := by
  simp [QualifiedElement.isSubstitutableFor, QualifiedElement.of, QualifiedElement.kind,
    ElementKind.isSubstitutableFor, n.kind_ne_expression, n.substitutionHead_kind_iff]

theorem envelope_avoids (n : Node) : n.envelope.Avoids "Expression" := by
  simpa [envelope, envelopeOf, tag_eq] using ⟨n.kind_ne_expression, n.payload_avoids⟩

/-- The tables of names and of substitution, the conversion to an expression and what is written
agree about a node. -/
structure Consistent (n : Node) : Prop where
  name : (QualifiedElement.of n).name = n.kind.qualifiedName
  named : ElementKind.ofLocalName? (QualifiedElement.of n).name.localName = some n.kind
  key : n.encode = .object [(n.kind.localName, n.payload)]
  envelope : n.envelope =
    .object [("xmlns", .string policyNamespace), (n.kind.localName, n.payload)]
  grouped : n.kind.substitutionHead = some .expression ↔ n.expression?.isSome
  substitutable : (QualifiedElement.of n).isSubstitutableFor .expression ↔ n.expression?.isSome
  restored : ∀ e, n.expression? = some e → expression e = n
  nameless : "Expression" ∉ n.encode.keys ∧ "Expression" ∉ n.envelope.keys
  slotted : ∀ m, OccursIn m n →
    List.Forall₂ Slot.WrittenIn m.slots (Value.slotsUnder m.kind m.payload) ∧
      ∀ v ∈ Value.slotsUnder m.kind m.payload, v.PartOf n.encode

theorem eq_of_expression?_eq_some {n : Node} {e : Expression} (h : n.expression? = some e) :
    expression e = n := by
  cases n <;> cases h <;> rfl

theorem consistent (n : Node) : n.Consistent where
  name := rfl
  named := ElementKind.ofLocalName?_localName n.kind
  key := by rw [encode, tag_eq, variant]
  envelope := by rw [envelope, envelopeOf, tag_eq]
  grouped := n.substitutionHead_kind_iff
  substitutable := n.isSubstitutableFor_expression_iff
  restored _ h := eq_of_expression?_eq_some h
  nameless := ⟨n.encode_avoids, n.envelope_avoids⟩
  slotted m h := ⟨m.slots_writtenIn, fun _ hv =>
    ((partOf_of_mem_slotsUnder hv).trans h.payload_partOf).trans n.payload_partOf_encode⟩

/-- Every node is consistent, and an expression or a source of a match keeps its kind as a node. -/
theorem expression_group_consistent :
    (∀ n : Node, n.Consistent) ∧
    (∀ e : Expression, (expression e).expression? = some e ∧ (expression e).kind = e.kind) ∧
    ∀ s : AttributeSource,
      (Expression.source s).kind = s.kind ∧ (expression (.source s)).kind = s.kind :=
  ⟨consistent, fun e => ⟨expression?_expression e, kind_expression e⟩,
    fun s => ⟨rfl, kind_expression (.source s)⟩⟩

end Node

end AccessPolicy
