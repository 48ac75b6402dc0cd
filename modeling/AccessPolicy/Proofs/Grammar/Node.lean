import AccessPolicy.Proofs.Grammar.Policy

namespace AccessPolicy.Node

open Json

theorem kind_ne_expression (n : Node) : n.kind ≠ .expression := by
  cases n using byGroup with
  | expression e =>
    have hconcrete : ∀ k ∈ Expression.kinds, k ≠ .expression := by decide
    rw [kind_expression]
    exact hconcrete _ e.kind_mem_kinds
  | defaults holder d => cases holder <;> rintro ⟨⟩
  | anyOf c alternatives => cases c <;> rintro ⟨⟩
  | allOf c ms => cases c <;> rintro ⟨⟩
  | targetMatch c m => cases c <;> rintro ⟨⟩
  | scopedParameters s ps => cases s <;> rintro ⟨⟩
  | reference kind r => cases kind <;> rintro ⟨⟩
  | _ => rintro ⟨⟩

theorem kind_mem_kinds (n : Node) : n.kind ∈ kinds := by
  refine List.mem_filter.2 ⟨ElementKind.mem_all n.kind, ?_⟩
  simpa [ElementKind.isAbstract] using n.kind_ne_expression

/-- A member of the expression group is read as such an expression. -/
theorem decodePayload_expression {k : ElementKind} (h : k ∈ Expression.kinds) (v : Value) :
    decodePayload k v = (Expression.decodePayload .standing k v).map expression := by
  simp only [Expression.kinds, List.mem_cons, List.not_mem_nil, or_false] at h
  obtain rfl | rfl | rfl | rfl | rfl | rfl | rfl | rfl | rfl := h
  · rw [Expression.decodePayload_apply, Layout.map_finish, map_seq_partial, map_map_partial]
    rfl
  · rw [Expression.decodePayload, Layout.map_finish, map_map_partial]
    rfl
  · rw [Expression.decodePayload, map_map_result]
    rfl
  · rw [Expression.decodePayload, map_map_result]
    rfl
  · rw [Expression.decodePayload, map_map_result]
    rfl
  · rw [Expression.decodePayload, map_map_result]
    rfl
  · rw [Expression.decodePayload, map_map_result]
    rfl
  · rw [Expression.decodePayload, map_map_result]
    rfl
  · rw [Expression.decodePayload, Layout.map_finish, map_map_partial]
    rfl

theorem payload_denotes (n : Node) : n.payload.Denotes (decodePayload n.kind) n := by
  cases n using byGroup with
  | policy p => exact p.denotes.map policy
  | policySet s => exact s.denotes.map policySet
  | description text => exact (denotes_string text).map description
  | xpathVersion text => exact (denotes_string text).map xpathVersion
  | defaults holder d =>
    cases holder with
    | policy => exact d.denotes.map (defaults .policy)
    | policySet => exact d.denotes.map (defaults .policySet)
  | target t => exact t.denotes.map target
  | anyOf c alternatives =>
    have h := (anyOf_denotes c alternatives).map (anyOf c)
    cases c <;> exact h
  | allOf c ms =>
    have h := (allOf_denotes c ms).map (allOf c)
    cases c <;> exact h
  | targetMatch c m =>
    have h := m.denotes.map (targetMatch c)
    cases c <;> exact h
  | rule r => exact r.denotes.map rule
  | condition e => exact (e.denotes .standing).map condition
  | expression e =>
    have h := Expression.payload_denotes .standing e
    rw [payload_expression, kind_expression, funext (decodePayload_expression e.kind_mem_kinds)]
    exact h.map expression
  | variableDefinition d => exact d.denotes.map variableDefinition
  | obligations os => exact (obligations_denotes os).map obligations
  | obligation o => exact o.denotes.map obligation
  | assignment a => exact a.denotes.map assignment
  | parameters ps => exact (parameters_denotes ps).map parameters
  | parameter p => exact p.denotes.map parameter
  | scopedParameters s ps =>
    have h := (scoped_denotes s ps).map (scopedParameters s)
    cases s <;> exact h
  | reference kind r =>
    have h := r.denotes.map (reference kind)
    cases kind <;> exact h

/-- A node of any kind is read again from what is written for it. -/
theorem denotes (n : Node) : n.encode.Denotes decode n :=
  member_denotes n.kind n.tag_eq n.kind_mem_kinds n.payload_denotes

/-- A payload that is read, under the name of its kind, gives the node. -/
theorem decode_member (n : Node) :
    decode (.object [(n.kind.localName, n.payload.sorted)]) = .ok n := by
  rw [← sorted_variant, ← tag_eq]
  exact n.denotes.decode_sorted

/-- The name and the payload that is read determine the node. -/
theorem eq_of_payload_eq {m n : Node} (hkind : m.kind.localName = n.kind.localName)
    (hpayload : m.payload.sorted = n.payload.sorted) : m = n := by
  have hm := m.decode_member
  rw [hkind, hpayload, n.decode_member] at hm
  exact (Except.ok.inj hm).symm

end AccessPolicy.Node
