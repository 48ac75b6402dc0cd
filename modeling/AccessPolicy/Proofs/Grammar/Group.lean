import AccessPolicy.Grammar.Defect
import AccessPolicy.Grammar.Encode

namespace AccessPolicy

namespace AttributeSource

/-- A source is written under the name of its kind. -/
theorem tag_eq (s : AttributeSource) : s.tag = s.kind.localName := by
  cases s <;> rfl

end AttributeSource

namespace Expression

/-- An expression is written under the name of its kind. -/
theorem tag_eq (e : Expression) : e.tag = e.kind.localName := by
  cases e <;> rfl

@[simp] theorem tag_source (s : AttributeSource) : (source s).tag = s.tag := by
  cases s <;> rfl

@[simp] theorem payload_source (s : AttributeSource) : (source s).payload = s.payload := by
  cases s <;> rfl

@[simp] theorem defects_source (s : AttributeSource) : (source s).defects = s.defects := by
  cases s <;> rfl

end Expression

namespace Node

/-- A node is written under the name of its kind. -/
theorem tag_eq (n : Node) : n.tag = n.kind.localName := by
  cases n with
  | defaults holder d => cases holder <;> rfl
  | anyOf c alternatives => cases c <;> rfl
  | allOf c ms => cases c <;> rfl
  | targetMatch c m => cases c <;> rfl
  | scopedParameters s ps => cases s <;> rfl
  | reference kind r => cases kind <;> rfl
  | _ => rfl

@[simp] theorem kind_expression (e : Expression) : (expression e).kind = e.kind := by
  cases e <;> rfl

@[simp] theorem payload_expression (e : Expression) : (expression e).payload = e.payload := by
  cases e <;> rfl

@[simp] theorem tag_expression (e : Expression) : (expression e).tag = e.tag := by
  cases e <;> rfl

/-- An expression is written alike as a node. -/
@[simp] theorem encode_expression (e : Expression) : (expression e).encode = e.encode := by
  rw [encode, tag_expression, payload_expression, Expression.encode]

@[simp] theorem defects_expression (e : Expression) : (expression e).defects = e.defects := by
  cases e <;> rfl

/-- An expression is given back by the node that it makes. -/
theorem expression?_expression (e : Expression) : (expression e).expression? = some e := by
  cases e <;> rfl

/-- Every node is an expression or of one of the other kinds, so a proof about all nodes may take
the members of the expression group as one case. -/
@[elab_as_elim]
theorem byGroup {motive : Node → Prop} (n : Node)
    (policy : ∀ p, motive (policy p))
    (policySet : ∀ s, motive (policySet s))
    (description : ∀ text, motive (description text))
    (xpathVersion : ∀ text, motive (xpathVersion text))
    (defaults : ∀ holder d, motive (defaults holder d))
    (target : ∀ t, motive (target t))
    (anyOf : ∀ c alternatives, motive (anyOf c alternatives))
    (allOf : ∀ c ms, motive (allOf c ms))
    (targetMatch : ∀ c m, motive (targetMatch c m))
    (rule : ∀ r, motive (rule r))
    (condition : ∀ e, motive (condition e))
    (expression : ∀ e, motive (expression e))
    (variableDefinition : ∀ d, motive (variableDefinition d))
    (obligations : ∀ os, motive (obligations os))
    (obligation : ∀ o, motive (obligation o))
    (assignment : ∀ a, motive (assignment a))
    (parameters : ∀ ps, motive (parameters ps))
    (parameter : ∀ p, motive (parameter p))
    (scopedParameters : ∀ s ps, motive (scopedParameters s ps))
    (reference : ∀ kind r, motive (reference kind r)) : motive n := by
  cases n with
  | policy p => exact policy p
  | policySet s => exact policySet s
  | description text => exact description text
  | xpathVersion text => exact xpathVersion text
  | defaults holder d => exact defaults holder d
  | target t => exact target t
  | anyOf c alternatives => exact anyOf c alternatives
  | allOf c ms => exact allOf c ms
  | targetMatch c m => exact targetMatch c m
  | rule r => exact rule r
  | condition e => exact condition e
  | apply functionId arguments => exact expression (.apply functionId arguments)
  | function functionId => exact expression (.function functionId)
  | subjectDesignator d => exact expression (.subjectDesignator d)
  | resourceDesignator d => exact expression (.resourceDesignator d)
  | actionDesignator d => exact expression (.actionDesignator d)
  | environmentDesignator d => exact expression (.environmentDesignator d)
  | selector s => exact expression (.selector s)
  | value v => exact expression (.value v)
  | «variable» variableId => exact expression (.variable variableId)
  | variableDefinition d => exact variableDefinition d
  | obligations os => exact obligations os
  | obligation o => exact obligation o
  | assignment a => exact assignment a
  | parameters ps => exact parameters ps
  | parameter p => exact parameter p
  | scopedParameters s ps => exact scopedParameters s ps
  | reference kind r => exact reference kind r

end Node

end AccessPolicy
