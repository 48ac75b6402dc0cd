import AccessPolicy.Proofs.Grammar.Node
import AccessPolicy.Proofs.Grammar.Occurrence
import AccessPolicy.Proofs.Json.Parts

namespace AccessPolicy

open Json

@[simp] theorem ElementKind.expression_eq_localName {k : ElementKind} :
    "Expression" = k.localName ↔ k = .expression :=
  (localName_inj (k := .expression)).trans eq_comm

theorem PolicyMember.encode_toNode (m : PolicyMember) : m.toNode.encode = m.encode := by
  cases m <;> rfl

theorem SetMember.encode_toNode (m : SetMember PolicySet) : m.toNode.encode = m.encode := by
  cases m with
  | reference kind r => cases kind <;> rfl
  | _ => rfl

namespace Node

theorem payload_partOf_encode (n : Node) : n.payload.PartOf n.encode :=
  Value.partOf_variant n.tag n.payload

section

open Value.PartOf

theorem payload_partOf_policy {c : Node} {p : Policy} (h : c ∈ (policy p).children) :
    c.payload.PartOf p.encode := by
  simp only [children, List.mem_append, List.mem_map, Option.mem_toList] at h
  rw [Policy.encode]
  obtain ((((⟨text, htext, rfl⟩ | ⟨d, hd, rfl⟩) | ⟨ps, hps, rfl⟩) | ⟨t, ht, rfl⟩) |
    ⟨m, hm, rfl⟩) | ⟨os, hos, rfl⟩ := h
  · exact of_mem "Description" (by simp [payload, mem_textField? htext])
  · exact of_mem "PolicyDefaults" (by simp [payload, mem_childField? hd])
  · exact of_mem "CombinerParameters" (by simp [payload, mem_childField? hps])
  · exact of_mem "Target" (by simp [payload, mem_childField? ht])
  · have hitem := List.mem_map_of_mem (f := PolicyMember.encode) hm
    refine of_mem_list "Content" (by simp [mem_listField hitem]) hitem ?_
    rw [← PolicyMember.encode_toNode]
    exact payload_partOf_encode _
  · exact of_mem "Obligations" (by simp [payload, mem_childField? hos])

theorem payload_partOf_policySet {c : Node} {s : PolicySet} (h : c ∈ (policySet s).children) :
    c.payload.PartOf s.encode := by
  obtain ⟨setId, version, algorithm, description, defaults, target, content, obligations⟩ := s
  simp only [children, List.mem_append, List.mem_map, Option.mem_toList] at h
  rw [PolicySet.encode, PolicySet.encodeMembers_eq_map, PolicySet.fieldsAround]
  obtain (((⟨text, htext, rfl⟩ | ⟨d, hd, rfl⟩) | ⟨t, ht, rfl⟩) | ⟨m, hm, rfl⟩) | ⟨os, hos, rfl⟩ := h
  · exact of_mem "Description" (by simp [payload, mem_textField? htext])
  · exact of_mem "PolicySetDefaults" (by simp [payload, mem_childField? hd])
  · exact of_mem "Target" (by simp [payload, mem_childField? ht])
  · have hitem := List.mem_map_of_mem (f := SetMember.encode) hm
    refine of_mem_list "Content" (by simp [mem_listField hitem]) hitem ?_
    rw [← SetMember.encode_toNode]
    exact payload_partOf_encode _
  · exact of_mem "Obligations" (by simp [payload, mem_childField? hos])

/-- What an element directly inside another is written as stands in what the other is written as. -/
theorem payload_partOf_of_child {c n : Node} (h : c ∈ n.children) :
    c.payload.PartOf n.payload := by
  cases n using byGroup with
  | policy p => exact payload_partOf_policy h
  | policySet s => exact payload_partOf_policySet h
  | defaults holder d =>
    obtain rfl := List.mem_singleton.1 h
    exact of_mem "XPathVersion" (List.mem_singleton_self _)
  | target t =>
    simp only [children, List.mem_append, List.mem_map, Option.mem_toList] at h
    rw [payload, Target.encode]
    obtain ((⟨a, ha, rfl⟩ | ⟨a, ha, rfl⟩) | ⟨a, ha, rfl⟩) | ⟨a, ha, rfl⟩ := h
    · exact of_mem "Subjects" (by simp [payload, mem_childField? ha])
    · exact of_mem "Resources" (by simp [payload, mem_childField? ha])
    · exact of_mem "Actions" (by simp [payload, mem_childField? ha])
    · exact of_mem "Environments" (by simp [payload, mem_childField? ha])
  | anyOf c alternatives =>
    obtain ⟨ms, hms, rfl⟩ := List.mem_map.1 h
    exact of_mem_list c.allOf.localName (List.mem_singleton_self _) (List.mem_map_of_mem hms) itself
  | allOf c ms =>
    obtain ⟨m, hm, rfl⟩ := List.mem_map.1 h
    exact of_mem_list c.targetMatch.localName (List.mem_singleton_self _) (List.mem_map_of_mem hm)
      itself
  | targetMatch c m =>
    rw [payload, TargetMatch.encode]
    simp only [children, List.mem_cons, List.not_mem_nil, or_false] at h
    obtain rfl | rfl := h
    · rw [payload_expression, Expression.payload]
      exact of_mem "AttributeValue" (by simp)
    · rw [payload_expression, Expression.payload_source]
      exact of_mem m.source.tag (by simp)
  | rule r =>
    simp only [children, List.mem_append, List.mem_map, Option.mem_toList] at h
    rw [payload, Rule.encode]
    obtain (⟨text, htext, rfl⟩ | ⟨t, ht, rfl⟩) | ⟨e, he, rfl⟩ := h
    · exact of_mem "Description" (by simp [payload, mem_textField? htext])
    · exact of_mem "Target" (by simp [payload, mem_childField? ht])
    · exact of_mem "Condition" (by simp [payload, mem_childField? he])
  | condition e =>
    obtain rfl := List.mem_singleton.1 h
    rw [payload_expression]
    exact Value.partOf_variant e.tag e.payload
  | expression e =>
    cases e with
    | apply functionId arguments =>
      obtain ⟨e, he, rfl⟩ := List.mem_map.1 h
      have hitem := List.mem_map_of_mem (f := Expression.encode) he
      rw [payload_expression, payload_expression, Expression.payload, encodeApply,
        Expression.encodeAll_eq_map]
      exact of_mem_list "Content" (by simp [mem_listField hitem]) hitem
        (Value.partOf_variant e.tag e.payload)
    | _ => cases h
  | variableDefinition d =>
    obtain rfl := List.mem_singleton.1 h
    rw [payload_expression, payload, VariableDefinition.encode]
    exact of_mem d.expression.tag (by simp)
  | obligations os =>
    obtain ⟨o, ho, rfl⟩ := List.mem_map.1 h
    exact of_mem_list "Obligation" (List.mem_singleton_self _) (List.mem_map_of_mem ho) itself
  | obligation o =>
    obtain ⟨a, ha, rfl⟩ := List.mem_map.1 h
    have hitem := List.mem_map_of_mem (f := AttributeAssignment.encode) ha
    rw [payload, Obligation.encode]
    exact of_mem_list "AttributeAssignment" (by simp [mem_listField hitem]) hitem itself
  | parameters ps =>
    obtain ⟨p, hp, rfl⟩ := List.mem_map.1 h
    have hitem := List.mem_map_of_mem (f := CombinerParameter.encode) hp
    exact of_mem_list "CombinerParameter" (mem_listField hitem) hitem itself
  | parameter p =>
    obtain rfl := List.mem_singleton.1 h
    rw [payload_expression, payload, Expression.payload, CombinerParameter.encode]
    exact of_mem "AttributeValue" (by simp)
  | scopedParameters s ps =>
    obtain ⟨p, hp, rfl⟩ := List.mem_map.1 h
    have hitem := List.mem_map_of_mem (f := CombinerParameter.encode) hp
    rw [payload, payload, encodeScoped, parameterField]
    exact of_mem_list "CombinerParameter" (by simp [mem_listField hitem]) hitem itself
  | _ => cases h

end

theorem OccursIn.payload_partOf {m n : Node} (h : m.OccursIn n) : m.payload.PartOf n.payload := by
  induction h with
  | itself => exact .itself
  | inside hchild _ ih => exact ih.trans (payload_partOf_of_child hchild)

theorem avoids_encode {n : Node} (h : n.payload.Avoids "Expression") :
    n.encode.Avoids "Expression" := by
  simpa [encode, tag_eq] using ⟨n.kind_ne_expression, h⟩

theorem tag_ne_expression (e : Expression) : "Expression" ≠ e.tag := by
  have h := (expression e).kind_ne_expression
  rw [kind_expression] at h
  simpa [e.tag_eq] using h

theorem avoids_policy {p : Policy}
    (h : ∀ c ∈ (policy p).children, c.payload.Avoids "Expression") :
    p.encode.Avoids "Expression" := by
  simp only [children, List.mem_append, or_imp, forall_and, List.forall_mem_map,
    Option.mem_toList] at h
  obtain ⟨⟨⟨⟨⟨-, hdefaults⟩, hparameters⟩, htarget⟩, hcontent⟩, hobligations⟩ := h
  have hmembers := fun m hm => avoids_encode (hcontent m hm)
  simp only [PolicyMember.encode_toNode] at hmembers
  simpa [Policy.encode] using
    ⟨hdefaults, hparameters, htarget, fun _ => hmembers, hobligations⟩

theorem avoids_policySet {s : PolicySet}
    (h : ∀ c ∈ (policySet s).children, c.payload.Avoids "Expression") :
    s.encode.Avoids "Expression" := by
  obtain ⟨setId, version, algorithm, description, defaults, target, content, obligations⟩ := s
  simp only [children, List.mem_append, or_imp, forall_and, List.forall_mem_map,
    Option.mem_toList] at h
  obtain ⟨⟨⟨⟨-, hdefaults⟩, htarget⟩, hcontent⟩, hobligations⟩ := h
  have hmembers := fun m hm => avoids_encode (hcontent m hm)
  simp only [SetMember.encode_toNode] at hmembers
  simpa [PolicySet.encode, PolicySet.fieldsAround, PolicySet.encodeMembers_eq_map]
    using ⟨hdefaults, htarget, fun _ => hmembers, hobligations⟩

theorem avoids_expression {e : Expression}
    (h : ∀ c ∈ (expression e).children, c.payload.Avoids "Expression") :
    e.payload.Avoids "Expression" := by
  cases e with
  | apply functionId arguments =>
    simp only [expression, children, List.forall_mem_map] at h
    have harguments : ∀ e ∈ arguments, e.encode.Avoids "Expression" := fun e he => by
      rw [← encode_expression]
      exact avoids_encode (h e he)
    simpa [Expression.payload, encodeApply, Expression.encodeAll_eq_map] using fun _ => harguments
  | function functionId => simp [Expression.payload, encodeFunction]
  | subjectDesignator d =>
    simp [Expression.payload, SubjectDesignator.encode, Designator.fields]
  | resourceDesignator d | actionDesignator d | environmentDesignator d =>
    simp [Expression.payload, Designator.encode, Designator.fields]
  | selector s => simp [Expression.payload, Selector.encode]
  | value v => simp [Expression.payload, AttributeValue.encode]
  | «variable» variableId => simp [Expression.payload, encodeVariable]

/-- The names of the fields that an element has itself are other ones, so it is enough that nothing
inside it has the name. -/
theorem avoids_of_children (n : Node) (h : ∀ c ∈ n.children, c.payload.Avoids "Expression") :
    n.payload.Avoids "Expression" := by
  cases n using byGroup with
  | policy p => exact avoids_policy h
  | policySet s => exact avoids_policySet h
  | description text => simp [payload]
  | xpathVersion text => simp [payload]
  | defaults holder d => simp [payload, Defaults.encode]
  | target t =>
    simp only [children, List.mem_append, or_imp, forall_and, List.forall_mem_map,
      Option.mem_toList, and_assoc] at h
    simpa [payload, Target.encode, and_assoc] using h
  | anyOf c alternatives =>
    have hkind : c.allOf ≠ .expression := (allOf c []).kind_ne_expression
    simp only [children, List.forall_mem_map] at h
    simpa [payload, encodeAnyOf, hkind] using h
  | allOf c ms =>
    simp only [children, List.forall_mem_map] at h
    have hkind : c.targetMatch ≠ .expression := by cases c <;> simp [Category.targetMatch]
    simpa [payload, encodeAllOf, hkind] using h
  | targetMatch c m =>
    simp only [children, List.forall_mem_cons, payload_expression, Expression.payload_source] at h
    have htag : "Expression" ≠ m.source.tag := by
      rw [m.source.tag_eq, AttributeSource.kind, ← Expression.tag_eq]
      exact tag_ne_expression _
    obtain ⟨hvalue, hsource, -⟩ := h
    simpa [payload, TargetMatch.encode, htag] using ⟨hvalue, hsource⟩
  | rule r =>
    simp only [children, List.mem_append, or_imp, forall_and, List.forall_mem_map,
      Option.mem_toList] at h
    obtain ⟨⟨-, htarget⟩, hcondition⟩ := h
    simpa [payload, Rule.encode, Effect.encode] using ⟨htarget, hcondition⟩
  | condition e =>
    simp only [children, List.forall_mem_cons] at h
    rw [payload, ← encode_expression]
    exact avoids_encode h.1
  | expression e =>
    rw [payload_expression]
    exact avoids_expression h
  | variableDefinition d =>
    simp only [children, List.forall_mem_cons, payload_expression] at h
    simpa [payload, VariableDefinition.encode, tag_ne_expression] using h.1
  | obligations os =>
    simp only [children, List.forall_mem_map] at h
    simpa [payload, encodeObligations] using h
  | obligation o =>
    simp only [children, List.forall_mem_map] at h
    simpa [payload, Obligation.encode, Effect.encode] using fun _ => h
  | assignment a => simp [payload, AttributeAssignment.encode]
  | parameters ps =>
    simp only [children, List.forall_mem_map] at h
    simpa [payload, encodeParameters, parameterField] using fun _ => h
  | parameter p =>
    simp only [children, List.forall_mem_cons, payload_expression] at h
    simpa [payload, Expression.payload, CombinerParameter.encode] using h.1
  | scopedParameters s ps =>
    simp only [children, List.forall_mem_map] at h
    have hid : "Expression" ≠ s.idField := by cases s <;> decide
    simpa [payload, encodeScoped, parameterField, hid] using fun _ => h
  | reference kind r => simp [payload, IdReference.encode]

/-- No key that is written for a node is the name of the expression group. -/
theorem payload_avoids (n : Node) : n.payload.Avoids "Expression" :=
  induction_children avoids_of_children n

theorem encode_avoids (n : Node) : n.encode.Avoids "Expression" :=
  avoids_encode n.payload_avoids

end Node

end AccessPolicy
