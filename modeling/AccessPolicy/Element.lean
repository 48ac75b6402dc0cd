namespace AccessPolicy

/-- The elements of the policy grammar. -/
inductive ElementKind where
  | policy
  | policySet
  | description
  | xpathVersion
  | policyDefaults
  | policySetDefaults
  | target
  | subjects
  | subject
  | subjectMatch
  | resources
  | resource
  | resourceMatch
  | actions
  | action
  | actionMatch
  | environments
  | environment
  | environmentMatch
  | rule
  | condition
  | apply
  | function
  | subjectAttributeDesignator
  | resourceAttributeDesignator
  | actionAttributeDesignator
  | environmentAttributeDesignator
  | attributeSelector
  | attributeValue
  | variableDefinition
  | variableReference
  | obligations
  | obligation
  | attributeAssignment
  | combinerParameters
  | combinerParameter
  | ruleCombinerParameters
  | policyCombinerParameters
  | policySetCombinerParameters
  | policyIdReference
  | policySetIdReference
  /-- The abstract head of the expression group, which no element bears. -/
  | expression
deriving DecidableEq

/-- The namespace of every element. -/
def policyNamespace : String :=
  "urn:oasis:names:tc:xacml:2.0:policy:schema:os"

structure QualifiedName where
  space : String
  localName : String
deriving DecidableEq

def QualifiedName.display (q : QualifiedName) : String :=
  "\x7b" ++ q.space ++ "\x7d" ++ q.localName

namespace ElementKind

/-- All kinds in the order of the schema. -/
def all : List ElementKind :=
  [policy, policySet, description, xpathVersion, policyDefaults, policySetDefaults, target,
   subjects, subject, subjectMatch, resources, resource, resourceMatch, actions, action,
   actionMatch, environments, environment, environmentMatch, rule, condition, apply, function,
   subjectAttributeDesignator, resourceAttributeDesignator, actionAttributeDesignator,
   environmentAttributeDesignator, attributeSelector, attributeValue, variableDefinition,
   variableReference, obligations, obligation, attributeAssignment, combinerParameters,
   combinerParameter, ruleCombinerParameters, policyCombinerParameters, policySetCombinerParameters,
   policyIdReference, policySetIdReference, expression]

def localName : ElementKind → String
  | policy => "Policy"
  | policySet => "PolicySet"
  | description => "Description"
  | xpathVersion => "XPathVersion"
  | policyDefaults => "PolicyDefaults"
  | policySetDefaults => "PolicySetDefaults"
  | target => "Target"
  | subjects => "Subjects"
  | subject => "Subject"
  | subjectMatch => "SubjectMatch"
  | resources => "Resources"
  | resource => "Resource"
  | resourceMatch => "ResourceMatch"
  | actions => "Actions"
  | action => "Action"
  | actionMatch => "ActionMatch"
  | environments => "Environments"
  | environment => "Environment"
  | environmentMatch => "EnvironmentMatch"
  | rule => "Rule"
  | condition => "Condition"
  | apply => "Apply"
  | function => "Function"
  | subjectAttributeDesignator => "SubjectAttributeDesignator"
  | resourceAttributeDesignator => "ResourceAttributeDesignator"
  | actionAttributeDesignator => "ActionAttributeDesignator"
  | environmentAttributeDesignator => "EnvironmentAttributeDesignator"
  | attributeSelector => "AttributeSelector"
  | attributeValue => "AttributeValue"
  | variableDefinition => "VariableDefinition"
  | variableReference => "VariableReference"
  | obligations => "Obligations"
  | obligation => "Obligation"
  | attributeAssignment => "AttributeAssignment"
  | combinerParameters => "CombinerParameters"
  | combinerParameter => "CombinerParameter"
  | ruleCombinerParameters => "RuleCombinerParameters"
  | policyCombinerParameters => "PolicyCombinerParameters"
  | policySetCombinerParameters => "PolicySetCombinerParameters"
  | policyIdReference => "PolicyIdReference"
  | policySetIdReference => "PolicySetIdReference"
  | expression => "Expression"

def qualifiedName (k : ElementKind) : QualifiedName :=
  ⟨policyNamespace, k.localName⟩

/-- Whether elements of this kind are expressions. -/
def isExpression : ElementKind → Bool
  | apply | function | subjectAttributeDesignator | resourceAttributeDesignator
  | actionAttributeDesignator | environmentAttributeDesignator | attributeSelector
  | attributeValue | variableReference => true
  | _ => false

/-- The head of the group whose members this kind belongs to. -/
def substitutionHead (k : ElementKind) : Option ElementKind :=
  if k.isExpression then some expression else none

def isAbstract (k : ElementKind) : Bool :=
  k = expression

/-- Whether an element of kind `k` may stand where `position` is declared. -/
def isSubstitutableFor (k position : ElementKind) : Bool :=
  k = position || k.substitutionHead = some position

/-- The kinds in `kinds` by local name. -/
def tableOf (kinds : List ElementKind) : List (String × ElementKind) :=
  kinds.map fun k => (k.localName, k)

def ofLocalName? (name : String) : Option ElementKind :=
  (tableOf all).lookup name

theorem mem_all (k : ElementKind) : k ∈ all := by
  cases k <;> decide

end ElementKind

end AccessPolicy
