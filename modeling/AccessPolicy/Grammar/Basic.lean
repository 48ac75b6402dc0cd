import AccessPolicy.ArtifactKind
import AccessPolicy.Element

namespace AccessPolicy

inductive Effect where
  | permit
  | deny
deriving DecidableEq

structure AttributeValue where
  dataType : String
  value : String
deriving DecidableEq

/-- Looks up an attribute of the request by its identifier. -/
structure Designator where
  attributeId : String
  dataType : String
  issuer : Option String
  mustBePresent : Bool
deriving DecidableEq

structure SubjectDesignator extends Designator where
  category : String
deriving DecidableEq

/-- The category of a subject designator that does not state one. -/
def accessSubject : String :=
  "urn:oasis:names:tc:xacml:1.0:subject-category:access-subject"

/-- Looks up a part of the request by a path. -/
structure Selector where
  path : String
  dataType : String
  mustBePresent : Bool
deriving DecidableEq

/-- What a target match takes from the request: a designator or a selector, not any expression. -/
inductive AttributeSource where
  | subjectDesignator (d : SubjectDesignator)
  | resourceDesignator (d : Designator)
  | actionDesignator (d : Designator)
  | environmentDesignator (d : Designator)
  | selector (s : Selector)
deriving DecidableEq

inductive Expression where
  | apply (functionId : String) (arguments : List Expression)
  | function (functionId : String)
  | subjectDesignator (d : SubjectDesignator)
  | resourceDesignator (d : Designator)
  | actionDesignator (d : Designator)
  | environmentDesignator (d : Designator)
  | selector (s : Selector)
  | value (v : AttributeValue)
  | variable (variableId : String)

/-- A source as an expression. -/
def Expression.source : AttributeSource → Expression
  | .subjectDesignator d => .subjectDesignator d
  | .resourceDesignator d => .resourceDesignator d
  | .actionDesignator d => .actionDesignator d
  | .environmentDesignator d => .environmentDesignator d
  | .selector s => .selector s

/-- Compares a literal with a value of the request. -/
structure TargetMatch where
  matchId : String
  value : AttributeValue
  source : AttributeSource
deriving DecidableEq

/-- Matches that must all hold. -/
abbrev AllOf := List TargetMatch

/-- Alternatives of which one must hold. -/
abbrev AnyOf := List AllOf

inductive Category where
  | subject
  | resource
  | action
  | environment
deriving DecidableEq

/-- Whom and what a rule, policy or set is about. An absent category does not restrict it. -/
structure Target where
  subjects : Option AnyOf
  resources : Option AnyOf
  actions : Option AnyOf
  environments : Option AnyOf
deriving DecidableEq

structure Defaults where
  xpathVersion : String
deriving DecidableEq

structure AttributeAssignment where
  dataType : String
  attributeId : String
  value : String
deriving DecidableEq

structure Obligation where
  obligationId : String
  fulfillOn : Effect
  assignments : List AttributeAssignment
deriving DecidableEq

structure CombinerParameter where
  name : String
  value : AttributeValue
deriving DecidableEq

/-- What combiner parameters may be limited to. -/
inductive ParameterScope where
  | rule
  | policy
  | policySet
deriving DecidableEq

/-- Combiner parameters for the one rule, policy or set that `idRef` names. -/
structure ScopedParameters where
  idRef : String
  parameters : List CombinerParameter
deriving DecidableEq

structure VariableDefinition where
  variableId : String
  expression : Expression

structure Rule where
  ruleId : String
  effect : Effect
  description : Option String
  target : Option Target
  condition : Option Expression

inductive PolicyMember where
  | parameters (ps : List CombinerParameter)
  | ruleParameters (ps : ScopedParameters)
  | variable (d : VariableDefinition)
  | rule (r : Rule)

/-- The version text of a policy or set that does not state one. -/
def defaultVersion : String := "1.0"

structure Policy where
  policyId : String
  version : String
  algorithm : String
  description : Option String
  defaults : Option Defaults
  parameters : Option (List CombinerParameter)
  target : Option Target
  content : List PolicyMember
  obligations : Option (List Obligation)

/-- A reference to a policy or set by its identifier, perhaps only to some of its versions. -/
structure IdReference where
  value : String
  version : Option String
  earliest : Option String
  latest : Option String
deriving DecidableEq

/-- A member of a policy set; `σ` is the type of the sets. -/
inductive SetMember (σ : Type) where
  | policySet (s : σ)
  | policy (p : Policy)
  | reference (kind : ArtifactKind) (r : IdReference)
  | parameters (ps : List CombinerParameter)
  | policyParameters (ps : ScopedParameters)
  | setParameters (ps : ScopedParameters)

structure PolicySet where
  setId : String
  version : String
  algorithm : String
  description : Option String
  defaults : Option Defaults
  target : Option Target
  content : List (SetMember PolicySet)
  obligations : Option (List Obligation)

/-- An element of any kind that can be written. -/
inductive Node where
  | policy (p : Policy)
  | policySet (s : PolicySet)
  | description (text : String)
  | xpathVersion (text : String)
  | defaults (holder : ArtifactKind) (d : Defaults)
  | target (t : Target)
  | anyOf (c : Category) (alternatives : AnyOf)
  | allOf (c : Category) (ms : AllOf)
  | targetMatch (c : Category) (m : TargetMatch)
  | rule (r : Rule)
  | condition (e : Expression)
  | apply (functionId : String) (arguments : List Expression)
  | function (functionId : String)
  | subjectDesignator (d : SubjectDesignator)
  | resourceDesignator (d : Designator)
  | actionDesignator (d : Designator)
  | environmentDesignator (d : Designator)
  | selector (s : Selector)
  | value (v : AttributeValue)
  | variable (variableId : String)
  | variableDefinition (d : VariableDefinition)
  | obligations (os : List Obligation)
  | obligation (o : Obligation)
  | assignment (a : AttributeAssignment)
  | parameters (ps : List CombinerParameter)
  | parameter (p : CombinerParameter)
  | scopedParameters (s : ParameterScope) (ps : ScopedParameters)
  | reference (kind : ArtifactKind) (r : IdReference)

namespace Category

def anyOf : Category → ElementKind
  | subject => .subjects
  | resource => .resources
  | action => .actions
  | environment => .environments

def allOf : Category → ElementKind
  | subject => .subject
  | resource => .resource
  | action => .action
  | environment => .environment

def targetMatch : Category → ElementKind
  | subject => .subjectMatch
  | resource => .resourceMatch
  | action => .actionMatch
  | environment => .environmentMatch

end Category

def ArtifactKind.defaultsKind : ArtifactKind → ElementKind
  | policy => .policyDefaults
  | policySet => .policySetDefaults

def ArtifactKind.referenceKind : ArtifactKind → ElementKind
  | policy => .policyIdReference
  | policySet => .policySetIdReference

def ParameterScope.kind : ParameterScope → ElementKind
  | rule => .ruleCombinerParameters
  | policy => .policyCombinerParameters
  | policySet => .policySetCombinerParameters

/-- The field that names what the parameters are limited to. -/
def ParameterScope.idField : ParameterScope → String
  | rule => "RuleIdRef"
  | policy => "PolicyIdRef"
  | policySet => "PolicySetIdRef"

def Expression.kind : Expression → ElementKind
  | apply _ _ => .apply
  | function _ => .function
  | subjectDesignator _ => .subjectAttributeDesignator
  | resourceDesignator _ => .resourceAttributeDesignator
  | actionDesignator _ => .actionAttributeDesignator
  | environmentDesignator _ => .environmentAttributeDesignator
  | selector _ => .attributeSelector
  | value _ => .attributeValue
  | .variable _ => .variableReference

/-- The kind of the source as an expression. -/
def AttributeSource.kind (s : AttributeSource) : ElementKind :=
  (Expression.source s).kind

namespace Node

def kind : Node → ElementKind
  | policy _ => .policy
  | policySet _ => .policySet
  | description _ => .description
  | xpathVersion _ => .xpathVersion
  | defaults holder _ => holder.defaultsKind
  | target _ => .target
  | anyOf c _ => c.anyOf
  | allOf c _ => c.allOf
  | targetMatch c _ => c.targetMatch
  | rule _ => .rule
  | condition _ => .condition
  | apply _ _ => .apply
  | function _ => .function
  | subjectDesignator _ => .subjectAttributeDesignator
  | resourceDesignator _ => .resourceAttributeDesignator
  | actionDesignator _ => .actionAttributeDesignator
  | environmentDesignator _ => .environmentAttributeDesignator
  | selector _ => .attributeSelector
  | value _ => .attributeValue
  | .variable _ => .variableReference
  | variableDefinition _ => .variableDefinition
  | obligations _ => .obligations
  | obligation _ => .obligation
  | assignment _ => .attributeAssignment
  | parameters _ => .combinerParameters
  | parameter _ => .combinerParameter
  | scopedParameters s _ => s.kind
  | reference kind _ => kind.referenceKind

/-- An expression as a node. -/
def expression : Expression → Node
  | .apply functionId arguments => apply functionId arguments
  | .function functionId => function functionId
  | .subjectDesignator d => subjectDesignator d
  | .resourceDesignator d => resourceDesignator d
  | .actionDesignator d => actionDesignator d
  | .environmentDesignator d => environmentDesignator d
  | .selector s => selector s
  | .value v => value v
  | .variable variableId => .variable variableId

/-- The node as a member of the expression group. -/
def expression? : Node → Option Expression
  | apply functionId arguments => some (.apply functionId arguments)
  | function functionId => some (.function functionId)
  | subjectDesignator d => some (.subjectDesignator d)
  | resourceDesignator d => some (.resourceDesignator d)
  | actionDesignator d => some (.actionDesignator d)
  | environmentDesignator d => some (.environmentDesignator d)
  | selector s => some (.selector s)
  | value v => some (.value v)
  | .variable variableId => some (.variable variableId)
  | _ => none

/-- What a target match compares with its literal. -/
def matchSource? : Node → Option AttributeSource
  | targetMatch _ m => some m.source
  | _ => none

end Node

def Policy.rules (p : Policy) : List Rule :=
  p.content.filterMap fun
    | .rule r => some r
    | _ => none

def Policy.variables (p : Policy) : List VariableDefinition :=
  p.content.filterMap fun
    | .variable d => some d
    | _ => none

end AccessPolicy
