import AccessPolicy.Grammar.Basic
import AccessPolicy.Json.Basic

namespace AccessPolicy

open Json

def textField (key text : String) : List (String × Value) :=
  [(key, .string text)]

def textField? (key : String) (text : Option String) : List (String × Value) :=
  text.toList.map fun t => (key, .string t)

/-- A flag is written only when it is on. -/
def flagField (key : String) (flag : Bool) : List (String × Value) :=
  if flag then [(key, .bool true)] else []

/-- A list that may be left out when it is empty. -/
def listField (key : String) (items : List Value) : List (String × Value) :=
  if items.isEmpty then [] else [(key, .array items)]

def childField? (key : String) (encode : α → Value) (child : Option α) : List (String × Value) :=
  child.toList.map fun c => (key, encode c)

/-- A payload under the name of its variant. -/
def variant (tag : String) (payload : Value) : Value :=
  .object [(tag, payload)]

def Effect.name : Effect → String
  | permit => "Permit"
  | deny => "Deny"

def Effect.encode (e : Effect) : Value :=
  .string e.name

def AttributeValue.encode (v : AttributeValue) : Value :=
  .object (textField "DataType" v.dataType ++ textField "Value" v.value)

def Designator.fields (d : Designator) : List (String × Value) :=
  textField "AttributeId" d.attributeId ++ textField "DataType" d.dataType ++
    textField? "Issuer" d.issuer ++ flagField "MustBePresent" d.mustBePresent

def Designator.encode (d : Designator) : Value :=
  .object d.fields

def SubjectDesignator.encode (d : SubjectDesignator) : Value :=
  .object (d.fields ++ textField "SubjectCategory" d.category)

def Selector.encode (s : Selector) : Value :=
  .object (textField "RequestContextPath" s.path ++ textField "DataType" s.dataType ++
    flagField "MustBePresent" s.mustBePresent)

/-- The name that a source is written under. -/
def AttributeSource.tag : AttributeSource → String
  | subjectDesignator _ => "SubjectAttributeDesignator"
  | resourceDesignator _ => "ResourceAttributeDesignator"
  | actionDesignator _ => "ActionAttributeDesignator"
  | environmentDesignator _ => "EnvironmentAttributeDesignator"
  | selector _ => "AttributeSelector"

/-- What stands under the name of the source. -/
def AttributeSource.payload : AttributeSource → Value
  | subjectDesignator d => d.encode
  | resourceDesignator d => d.encode
  | actionDesignator d => d.encode
  | environmentDesignator d => d.encode
  | selector s => s.encode

def AttributeSource.encode (s : AttributeSource) : Value :=
  variant s.tag s.payload

/-- A function application whose arguments are written already. -/
def encodeApply (functionId : String) (arguments : List Value) : Value :=
  .object (textField "FunctionId" functionId ++ listField "Content" arguments)

def encodeFunction (functionId : String) : Value :=
  .object (textField "FunctionId" functionId)

def encodeVariable (variableId : String) : Value :=
  .object (textField "VariableId" variableId)

/-- The name that an expression is written under. -/
def Expression.tag : Expression → String
  | apply _ _ => "Apply"
  | function _ => "Function"
  | subjectDesignator _ => "SubjectAttributeDesignator"
  | resourceDesignator _ => "ResourceAttributeDesignator"
  | actionDesignator _ => "ActionAttributeDesignator"
  | environmentDesignator _ => "EnvironmentAttributeDesignator"
  | selector _ => "AttributeSelector"
  | value _ => "AttributeValue"
  | .variable _ => "VariableReference"

mutual

/-- What stands under the name of the expression. -/
def Expression.payload : Expression → Value
  | .apply functionId arguments => encodeApply functionId (encodeAll arguments)
  | .function functionId => encodeFunction functionId
  | .subjectDesignator d => d.encode
  | .resourceDesignator d => d.encode
  | .actionDesignator d => d.encode
  | .environmentDesignator d => d.encode
  | .selector s => s.encode
  | .value v => v.encode
  | .variable variableId => encodeVariable variableId

def Expression.encodeAll : List Expression → List Value
  | [] => []
  | e :: es => variant e.tag e.payload :: encodeAll es

end

def Expression.encode (e : Expression) : Value :=
  variant e.tag e.payload

theorem Expression.encodeAll_eq_map (es : List Expression) : encodeAll es = es.map encode := by
  induction es with
  | nil => simp [encodeAll]
  | cons e es ih => simp [encodeAll, encode, ih]

/-- The source stands among the fields of the match itself. -/
def TargetMatch.encode (m : TargetMatch) : Value :=
  .object (textField "MatchId" m.matchId ++ [("AttributeValue", m.value.encode)] ++
    [(m.source.tag, m.source.payload)])

def encodeAllOf (c : Category) (ms : AllOf) : Value :=
  .object [(c.targetMatch.localName, .array (ms.map TargetMatch.encode))]

def encodeAnyOf (c : Category) (alternatives : AnyOf) : Value :=
  .object [(c.allOf.localName, .array (alternatives.map (encodeAllOf c)))]

def Target.encode (t : Target) : Value :=
  .object (childField? "Subjects" (encodeAnyOf .subject) t.subjects ++
    childField? "Resources" (encodeAnyOf .resource) t.resources ++
    childField? "Actions" (encodeAnyOf .action) t.actions ++
    childField? "Environments" (encodeAnyOf .environment) t.environments)

def Defaults.encode (d : Defaults) : Value :=
  .object (textField "XPathVersion" d.xpathVersion)

def AttributeAssignment.encode (a : AttributeAssignment) : Value :=
  .object (textField "DataType" a.dataType ++ textField "AttributeId" a.attributeId ++
    textField "Value" a.value)

def Obligation.encode (o : Obligation) : Value :=
  .object (textField "ObligationId" o.obligationId ++ [("FulfillOn", o.fulfillOn.encode)] ++
    listField "AttributeAssignment" (o.assignments.map AttributeAssignment.encode))

def encodeObligations (os : List Obligation) : Value :=
  .object [("Obligation", .array (os.map Obligation.encode))]

def CombinerParameter.encode (p : CombinerParameter) : Value :=
  .object (textField "ParameterName" p.name ++ [("AttributeValue", p.value.encode)])

def parameterField (ps : List CombinerParameter) : List (String × Value) :=
  listField "CombinerParameter" (ps.map CombinerParameter.encode)

def encodeParameters (ps : List CombinerParameter) : Value :=
  .object (parameterField ps)

def encodeScoped (s : ParameterScope) (ps : ScopedParameters) : Value :=
  .object (textField s.idField ps.idRef ++ parameterField ps.parameters)

/-- The expression stands among the fields of the definition itself. -/
def VariableDefinition.encode (d : VariableDefinition) : Value :=
  .object (textField "VariableId" d.variableId ++
    [(d.expression.tag, d.expression.payload)])

def Rule.encode (r : Rule) : Value :=
  .object (textField "RuleId" r.ruleId ++ [("Effect", r.effect.encode)] ++
    textField? "Description" r.description ++ childField? "Target" Target.encode r.target ++
    childField? "Condition" Expression.encode r.condition)

def PolicyMember.encode : PolicyMember → Value
  | parameters ps => variant "CombinerParameters" (encodeParameters ps)
  | ruleParameters ps => variant "RuleCombinerParameters" (encodeScoped .rule ps)
  | .variable d => variant "VariableDefinition" d.encode
  | rule r => variant "Rule" r.encode

def Policy.encode (p : Policy) : Value :=
  .object (textField "PolicyId" p.policyId ++ textField "Version" p.version ++
    textField "RuleCombiningAlgId" p.algorithm ++ textField? "Description" p.description ++
    childField? "PolicyDefaults" Defaults.encode p.defaults ++
    childField? "CombinerParameters" encodeParameters p.parameters ++
    childField? "Target" Target.encode p.target ++
    listField "Content" (p.content.map PolicyMember.encode) ++
    childField? "Obligations" encodeObligations p.obligations)

def IdReference.encode (r : IdReference) : Value :=
  .object (textField "Value" r.value ++ textField? "Version" r.version ++
    textField? "EarliestVersion" r.earliest ++ textField? "LatestVersion" r.latest)

/-- The fields of a set around its content. -/
def PolicySet.fieldsAround (setId version algorithm : String) (description : Option String)
    (defaults : Option Defaults) (target : Option Target) (content : List Value)
    (obligations : Option (List Obligation)) : List (String × Value) :=
  textField "PolicySetId" setId ++ textField "Version" version ++
    textField "PolicyCombiningAlgId" algorithm ++ textField? "Description" description ++
    childField? "PolicySetDefaults" Defaults.encode defaults ++
    childField? "Target" Target.encode target ++
    listField "Content" content ++
    childField? "Obligations" encodeObligations obligations

mutual

def PolicySet.encode : PolicySet → Value
  | ⟨setId, version, algorithm, description, defaults, target, content, obligations⟩ =>
    .object (fieldsAround setId version algorithm description defaults target
      (encodeMembers content) obligations)

def PolicySet.encodeMembers : List (SetMember PolicySet) → List Value
  | [] => []
  | .policySet s :: rest => variant "PolicySet" s.encode :: encodeMembers rest
  | .policy p :: rest => variant "Policy" p.encode :: encodeMembers rest
  | .reference .policy r :: rest => variant "PolicyIdReference" r.encode :: encodeMembers rest
  | .reference .policySet r :: rest =>
    variant "PolicySetIdReference" r.encode :: encodeMembers rest
  | .parameters ps :: rest =>
    variant "CombinerParameters" (encodeParameters ps) :: encodeMembers rest
  | .policyParameters ps :: rest =>
    variant "PolicyCombinerParameters" (encodeScoped .policy ps) :: encodeMembers rest
  | .setParameters ps :: rest =>
    variant "PolicySetCombinerParameters" (encodeScoped .policySet ps) :: encodeMembers rest

end

def SetMember.encode : SetMember PolicySet → Value
  | policySet s => variant "PolicySet" s.encode
  | policy p => variant "Policy" p.encode
  | reference .policy r => variant "PolicyIdReference" r.encode
  | reference .policySet r => variant "PolicySetIdReference" r.encode
  | parameters ps => variant "CombinerParameters" (encodeParameters ps)
  | policyParameters ps => variant "PolicyCombinerParameters" (encodeScoped .policy ps)
  | setParameters ps => variant "PolicySetCombinerParameters" (encodeScoped .policySet ps)

theorem PolicySet.encodeMembers_eq_map (ms : List (SetMember PolicySet)) :
    encodeMembers ms = ms.map SetMember.encode := by
  induction ms with
  | nil => simp [encodeMembers]
  | cons m ms ih =>
    cases m with
    | reference kind r => cases kind <;> simp [encodeMembers, SetMember.encode, ih]
    | _ => simp [encodeMembers, SetMember.encode, ih]

namespace Node

/-- The name that a node is written under. -/
def tag : Node → String
  | policy _ => "Policy"
  | policySet _ => "PolicySet"
  | description _ => "Description"
  | xpathVersion _ => "XPathVersion"
  | defaults .policy _ => "PolicyDefaults"
  | defaults .policySet _ => "PolicySetDefaults"
  | target _ => "Target"
  | anyOf .subject _ => "Subjects"
  | anyOf .resource _ => "Resources"
  | anyOf .action _ => "Actions"
  | anyOf .environment _ => "Environments"
  | allOf .subject _ => "Subject"
  | allOf .resource _ => "Resource"
  | allOf .action _ => "Action"
  | allOf .environment _ => "Environment"
  | targetMatch .subject _ => "SubjectMatch"
  | targetMatch .resource _ => "ResourceMatch"
  | targetMatch .action _ => "ActionMatch"
  | targetMatch .environment _ => "EnvironmentMatch"
  | rule _ => "Rule"
  | condition _ => "Condition"
  | apply _ _ => "Apply"
  | function _ => "Function"
  | subjectDesignator _ => "SubjectAttributeDesignator"
  | resourceDesignator _ => "ResourceAttributeDesignator"
  | actionDesignator _ => "ActionAttributeDesignator"
  | environmentDesignator _ => "EnvironmentAttributeDesignator"
  | selector _ => "AttributeSelector"
  | value _ => "AttributeValue"
  | variableDefinition _ => "VariableDefinition"
  | .variable _ => "VariableReference"
  | obligations _ => "Obligations"
  | obligation _ => "Obligation"
  | assignment _ => "AttributeAssignment"
  | parameters _ => "CombinerParameters"
  | parameter _ => "CombinerParameter"
  | scopedParameters .rule _ => "RuleCombinerParameters"
  | scopedParameters .policy _ => "PolicyCombinerParameters"
  | scopedParameters .policySet _ => "PolicySetCombinerParameters"
  | reference .policy _ => "PolicyIdReference"
  | reference .policySet _ => "PolicySetIdReference"

/-- What stands under the name of the node. -/
def payload : Node → Value
  | policy p => p.encode
  | policySet s => s.encode
  | description text => .string text
  | xpathVersion text => .string text
  | defaults _ d => d.encode
  | target t => t.encode
  | anyOf c alternatives => encodeAnyOf c alternatives
  | allOf c ms => encodeAllOf c ms
  | targetMatch _ m => m.encode
  | rule r => r.encode
  | condition e => e.encode
  | apply functionId arguments => encodeApply functionId (Expression.encodeAll arguments)
  | function functionId => encodeFunction functionId
  | subjectDesignator d => d.encode
  | resourceDesignator d => d.encode
  | actionDesignator d => d.encode
  | environmentDesignator d => d.encode
  | selector s => s.encode
  | value v => v.encode
  | .variable variableId => encodeVariable variableId
  | variableDefinition d => d.encode
  | obligations os => encodeObligations os
  | obligation o => o.encode
  | assignment a => a.encode
  | parameters ps => encodeParameters ps
  | parameter p => p.encode
  | scopedParameters s ps => encodeScoped s ps
  | reference _ r => r.encode

/-- Fields come in the order of the schema; absent children, empty lists that may be left out and
flags that are off are not written. A node is written under its own name. -/
def encode (n : Node) : Value :=
  variant n.tag n.payload

end Node

end AccessPolicy
