import AccessPolicy.Proofs.Grammar.Group

namespace AccessPolicy

def PolicyMember.toNode : PolicyMember → Node
  | parameters ps => .parameters ps
  | ruleParameters ps => .scopedParameters .rule ps
  | .variable d => .variableDefinition d
  | rule r => .rule r

def SetMember.toNode : SetMember PolicySet → Node
  | policySet s => .policySet s
  | policy p => .policy p
  | reference kind r => .reference kind r
  | parameters ps => .parameters ps
  | policyParameters ps => .scopedParameters .policy ps
  | setParameters ps => .scopedParameters .policySet ps

namespace Node

/-- The elements that stand directly inside an element, in document order. -/
def children : Node → List Node
  | policy p =>
    p.description.toList.map description ++ p.defaults.toList.map (defaults .policy) ++
      p.parameters.toList.map parameters ++ p.target.toList.map target ++
      p.content.map PolicyMember.toNode ++ p.obligations.toList.map obligations
  | policySet s =>
    s.description.toList.map description ++ s.defaults.toList.map (defaults .policySet) ++
      s.target.toList.map target ++ s.content.map SetMember.toNode ++
      s.obligations.toList.map obligations
  | description _ => []
  | xpathVersion _ => []
  | defaults _ d => [xpathVersion d.xpathVersion]
  | target t =>
    t.subjects.toList.map (anyOf .subject) ++ t.resources.toList.map (anyOf .resource) ++
      t.actions.toList.map (anyOf .action) ++ t.environments.toList.map (anyOf .environment)
  | anyOf c alternatives => alternatives.map (allOf c)
  | allOf c ms => ms.map (targetMatch c)
  | targetMatch _ m => [expression (.value m.value), expression (.source m.source)]
  | rule r =>
    r.description.toList.map description ++ r.target.toList.map target ++
      r.condition.toList.map condition
  | condition e => [expression e]
  | apply _ arguments => arguments.map expression
  | function _ => []
  | subjectDesignator _ => []
  | resourceDesignator _ => []
  | actionDesignator _ => []
  | environmentDesignator _ => []
  | selector _ => []
  | value _ => []
  | .variable _ => []
  | variableDefinition d => [expression d.expression]
  | obligations os => os.map obligation
  | obligation o => o.assignments.map assignment
  | assignment _ => []
  | parameters ps => ps.map parameter
  | parameter p => [expression (.value p.value)]
  | scopedParameters _ ps => ps.parameters.map parameter
  | reference _ _ => []

/-- The element is the other one itself or stands somewhere inside it. -/
inductive OccursIn : Node → Node → Prop
  | itself {n : Node} : OccursIn n n
  | inside {m c n : Node} (hchild : c ∈ n.children) (h : OccursIn m c) : OccursIn m n

mutual

theorem holds_expression {P : Node → Prop} (h : ∀ n, (∀ c ∈ n.children, P c) → P n) :
    (e : Expression) → P (expression e)
  | .apply _ arguments => h _ (by simpa [children, expression] using holds_expressions h arguments)
  | .function _ => h _ (by simp [children, expression])
  | .subjectDesignator _ => h _ (by simp [children, expression])
  | .resourceDesignator _ => h _ (by simp [children, expression])
  | .actionDesignator _ => h _ (by simp [children, expression])
  | .environmentDesignator _ => h _ (by simp [children, expression])
  | .selector _ => h _ (by simp [children, expression])
  | .value _ => h _ (by simp [children, expression])
  | .variable _ => h _ (by simp [children, expression])

theorem holds_expressions {P : Node → Prop} (h : ∀ n, (∀ c ∈ n.children, P c) → P n) :
    (es : List Expression) → ∀ e ∈ es, P (expression e)
  | [] => by simp
  | e :: es => by simpa using ⟨holds_expression h e, holds_expressions h es⟩

end

section

variable {P : Node → Prop} (h : ∀ n, (∀ c ∈ n.children, P c) → P n)

include h

theorem holds_description (text : String) : P (description text) :=
  h _ (by simp [children])

theorem holds_condition (e : Expression) : P (condition e) :=
  h _ (by simpa [children] using holds_expression h e)

theorem holds_targetMatch (c : Category) (m : TargetMatch) : P (targetMatch c m) := by
  have hvalue := holds_expression h (.value m.value)
  have hsource := holds_expression h (.source m.source)
  exact h _ (by simpa [children] using ⟨hvalue, hsource⟩)

theorem holds_allOf (c : Category) (ms : AllOf) : P (allOf c ms) :=
  h _ (by simpa [children] using fun m _ => holds_targetMatch h c m)

theorem holds_anyOf (c : Category) (alternatives : AnyOf) : P (anyOf c alternatives) :=
  h _ (by simpa [children] using fun ms _ => holds_allOf h c ms)

theorem holds_target (t : Target) : P (target t) := by
  refine h _ fun c hc => ?_
  simp only [children, List.mem_append, List.mem_map] at hc
  obtain ((⟨a, -, rfl⟩ | ⟨a, -, rfl⟩) | ⟨a, -, rfl⟩) | ⟨a, -, rfl⟩ := hc <;>
    exact holds_anyOf h _ a

theorem holds_rule (r : Rule) : P (rule r) := by
  refine h _ fun c hc => ?_
  simp only [children, List.mem_append, List.mem_map] at hc
  obtain (⟨text, -, rfl⟩ | ⟨t, -, rfl⟩) | ⟨e, -, rfl⟩ := hc
  · exact holds_description h text
  · exact holds_target h t
  · exact holds_condition h e

theorem holds_defaults (holder : ArtifactKind) (d : Defaults) : P (defaults holder d) := by
  have htext : P (xpathVersion d.xpathVersion) := h _ (by simp [children])
  exact h _ (by simpa [children] using htext)

theorem holds_variableDefinition (d : VariableDefinition) : P (variableDefinition d) :=
  h _ (by simpa [children] using holds_expression h d.expression)

theorem holds_obligation (o : Obligation) : P (obligation o) := by
  have hassignment (a : AttributeAssignment) : P (assignment a) := h _ (by simp [children])
  exact h _ (by simpa [children] using fun a _ => hassignment a)

theorem holds_obligations (os : List Obligation) : P (obligations os) :=
  h _ (by simpa [children] using fun o _ => holds_obligation h o)

theorem holds_parameter (p : CombinerParameter) : P (parameter p) :=
  h _ (by simpa [children] using holds_expression h (.value p.value))

theorem holds_parameters (ps : List CombinerParameter) : P (parameters ps) :=
  h _ (by simpa [children] using fun p _ => holds_parameter h p)

theorem holds_scopedParameters (s : ParameterScope) (ps : ScopedParameters) :
    P (scopedParameters s ps) :=
  h _ (by simpa [children] using fun p _ => holds_parameter h p)

theorem holds_reference (kind : ArtifactKind) (r : IdReference) : P (reference kind r) :=
  h _ (by simp [children])

theorem holds_policyMember (m : PolicyMember) : P m.toNode := by
  cases m with
  | parameters ps => exact holds_parameters h ps
  | ruleParameters ps => exact holds_scopedParameters h .rule ps
  | «variable» d => exact holds_variableDefinition h d
  | rule r => exact holds_rule h r

theorem holds_policy (p : Policy) : P (policy p) := by
  refine h _ fun c hc => ?_
  simp only [children, List.mem_append, List.mem_map] at hc
  obtain ((((⟨text, -, rfl⟩ | ⟨d, -, rfl⟩) | ⟨ps, -, rfl⟩) | ⟨t, -, rfl⟩) | ⟨m, -, rfl⟩) |
    ⟨os, -, rfl⟩ := hc
  · exact holds_description h text
  · exact holds_defaults h .policy d
  · exact holds_parameters h ps
  · exact holds_target h t
  · exact holds_policyMember h m
  · exact holds_obligations h os

mutual

theorem holds_policySet : (s : PolicySet) → P (policySet s)
  | ⟨_, _, _, _, _, _, content, _⟩ => by
    have hcontent := holds_setMembers content
    refine h _ fun c hc => ?_
    simp only [children, List.mem_append, List.mem_map] at hc
    obtain (((⟨text, -, rfl⟩ | ⟨d, -, rfl⟩) | ⟨t, -, rfl⟩) | ⟨m, hm, rfl⟩) | ⟨os, -, rfl⟩ := hc
    · exact holds_description h text
    · exact holds_defaults h .policySet d
    · exact holds_target h t
    · exact hcontent m hm
    · exact holds_obligations h os

theorem holds_setMembers : (ms : List (SetMember PolicySet)) → ∀ m ∈ ms, P m.toNode
  | [] => by simp
  | m :: ms => by
    have hrest := holds_setMembers ms
    have hfirst : P m.toNode := by
      match m with
      | .policySet s => exact holds_policySet s
      | .policy p => exact holds_policy h p
      | .reference kind r => exact holds_reference h kind r
      | .parameters ps => exact holds_parameters h ps
      | .policyParameters ps => exact holds_scopedParameters h .policy ps
      | .setParameters ps => exact holds_scopedParameters h .policySet ps
    simpa using ⟨hfirst, hrest⟩

end

/-- What holds of an element if it holds of those directly inside it holds of every element. -/
theorem induction_children (n : Node) : P n := by
  cases n using byGroup with
  | policy p => exact holds_policy h p
  | policySet s => exact holds_policySet h s
  | description text => exact holds_description h text
  | xpathVersion text => exact h _ (by simp [children])
  | defaults holder d => exact holds_defaults h holder d
  | target t => exact holds_target h t
  | anyOf c alternatives => exact holds_anyOf h c alternatives
  | allOf c ms => exact holds_allOf h c ms
  | targetMatch c m => exact holds_targetMatch h c m
  | rule r => exact holds_rule h r
  | condition e => exact holds_condition h e
  | expression e => exact holds_expression h e
  | variableDefinition d => exact holds_variableDefinition h d
  | obligations os => exact holds_obligations h os
  | obligation o => exact holds_obligation h o
  | assignment a => exact h _ (by simp [children])
  | parameters ps => exact holds_parameters h ps
  | parameter p => exact holds_parameter h p
  | scopedParameters s ps => exact holds_scopedParameters h s ps
  | reference kind r => exact holds_reference h kind r

end

end Node

end AccessPolicy
