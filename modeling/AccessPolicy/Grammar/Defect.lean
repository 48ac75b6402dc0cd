import AccessPolicy.Grammar.Basic
import AccessPolicy.Text.Blank

namespace AccessPolicy

inductive Defect where
  | blankText (element : ElementKind) (field : String)
  | emptyList (element child : ElementKind)
deriving DecidableEq

def Defect.message : Defect → String
  | blankText element field => element.localName ++ " is missing required " ++ field
  | emptyList element child => element.localName ++ " requires at least one " ++ child.localName

def requireText (element : ElementKind) (field text : String) : List Defect :=
  if Text.blank text then [.blankText element field] else []

def requireSome (element child : ElementKind) (items : List α) : List Defect :=
  if items.isEmpty then [.emptyList element child] else []

/-- The defects of a child that may be absent. -/
def defectsIn (defects : α → List Defect) (child : Option α) : List Defect :=
  child.toList.flatMap defects

def AttributeValue.defects (v : AttributeValue) : List Defect :=
  requireText .attributeValue "DataType" v.dataType

def Designator.defects (k : ElementKind) (d : Designator) : List Defect :=
  requireText k "AttributeId" d.attributeId ++ requireText k "DataType" d.dataType

def SubjectDesignator.defects (d : SubjectDesignator) : List Defect :=
  d.toDesignator.defects .subjectAttributeDesignator ++
    requireText .subjectAttributeDesignator "SubjectCategory" d.category

def Selector.defects (s : Selector) : List Defect :=
  requireText .attributeSelector "RequestContextPath" s.path ++
    requireText .attributeSelector "DataType" s.dataType

def AttributeSource.defects : AttributeSource → List Defect
  | subjectDesignator d => d.defects
  | resourceDesignator d => d.defects .resourceAttributeDesignator
  | actionDesignator d => d.defects .actionAttributeDesignator
  | environmentDesignator d => d.defects .environmentAttributeDesignator
  | selector s => s.defects

mutual

def Expression.defects : Expression → List Defect
  | .apply functionId arguments =>
    requireText .apply "FunctionId" functionId ++ defectsOfAll arguments
  | .function functionId => requireText .function "FunctionId" functionId
  | .subjectDesignator d => d.defects
  | .resourceDesignator d => d.defects .resourceAttributeDesignator
  | .actionDesignator d => d.defects .actionAttributeDesignator
  | .environmentDesignator d => d.defects .environmentAttributeDesignator
  | .selector s => s.defects
  | .value v => v.defects
  | .variable variableId => requireText .variableReference "VariableId" variableId

def Expression.defectsOfAll : List Expression → List Defect
  | [] => []
  | e :: es => e.defects ++ defectsOfAll es

end

def TargetMatch.defects (c : Category) (m : TargetMatch) : List Defect :=
  requireText c.targetMatch "MatchId" m.matchId ++ m.value.defects ++ m.source.defects

def defectsOfAllOf (c : Category) (ms : AllOf) : List Defect :=
  requireSome c.allOf c.targetMatch ms ++ ms.flatMap (TargetMatch.defects c)

def defectsOfAnyOf (c : Category) (alternatives : AnyOf) : List Defect :=
  requireSome c.anyOf c.allOf alternatives ++ alternatives.flatMap (defectsOfAllOf c)

def Target.defects (t : Target) : List Defect :=
  defectsIn (defectsOfAnyOf .subject) t.subjects ++
    defectsIn (defectsOfAnyOf .resource) t.resources ++
    defectsIn (defectsOfAnyOf .action) t.actions ++
    defectsIn (defectsOfAnyOf .environment) t.environments

def Defaults.defects (holder : ArtifactKind) (d : Defaults) : List Defect :=
  requireText holder.defaultsKind "XPathVersion" d.xpathVersion

def AttributeAssignment.defects (a : AttributeAssignment) : List Defect :=
  requireText .attributeAssignment "AttributeId" a.attributeId ++
    requireText .attributeAssignment "DataType" a.dataType

def Obligation.defects (o : Obligation) : List Defect :=
  requireText .obligation "ObligationId" o.obligationId ++
    o.assignments.flatMap AttributeAssignment.defects

def defectsOfObligations (os : List Obligation) : List Defect :=
  requireSome .obligations .obligation os ++ os.flatMap Obligation.defects

def CombinerParameter.defects (p : CombinerParameter) : List Defect :=
  requireText .combinerParameter "ParameterName" p.name ++ p.value.defects

def defectsOfParameters (ps : List CombinerParameter) : List Defect :=
  ps.flatMap CombinerParameter.defects

def defectsOfScoped (s : ParameterScope) (ps : ScopedParameters) : List Defect :=
  requireText s.kind s.idField ps.idRef ++ defectsOfParameters ps.parameters

def VariableDefinition.defects (d : VariableDefinition) : List Defect :=
  requireText .variableDefinition "VariableId" d.variableId ++ d.expression.defects

def Rule.defects (r : Rule) : List Defect :=
  requireText .rule "RuleId" r.ruleId ++ defectsIn Target.defects r.target ++
    defectsIn Expression.defects r.condition

def PolicyMember.defects : PolicyMember → List Defect
  | parameters ps => defectsOfParameters ps
  | ruleParameters ps => defectsOfScoped .rule ps
  | .variable d => d.defects
  | rule r => r.defects

def Policy.defects (p : Policy) : List Defect :=
  requireText .policy "PolicyId" p.policyId ++ requireText .policy "Version" p.version ++
    requireText .policy "RuleCombiningAlgId" p.algorithm ++
    defectsIn (Defaults.defects .policy) p.defaults ++
    defectsIn defectsOfParameters p.parameters ++
    defectsIn Target.defects p.target ++
    p.content.flatMap PolicyMember.defects ++
    defectsIn defectsOfObligations p.obligations

def IdReference.defects (kind : ArtifactKind) (r : IdReference) : List Defect :=
  requireText kind.referenceKind "Value" r.value

mutual

def PolicySet.defects : PolicySet → List Defect
  | ⟨setId, version, algorithm, _, defaults, target, content, obligations⟩ =>
    requireText .policySet "PolicySetId" setId ++ requireText .policySet "Version" version ++
      requireText .policySet "PolicyCombiningAlgId" algorithm ++
      defectsIn (Defaults.defects .policySet) defaults ++
      defectsIn Target.defects target ++
      defectsOfMembers content ++
      defectsIn defectsOfObligations obligations

def PolicySet.defectsOfMembers : List (SetMember PolicySet) → List Defect
  | [] => []
  | .policySet s :: rest => s.defects ++ defectsOfMembers rest
  | .policy p :: rest => p.defects ++ defectsOfMembers rest
  | .reference kind r :: rest => r.defects kind ++ defectsOfMembers rest
  | .parameters ps :: rest => defectsOfParameters ps ++ defectsOfMembers rest
  | .policyParameters ps :: rest => defectsOfScoped .policy ps ++ defectsOfMembers rest
  | .setParameters ps :: rest => defectsOfScoped .policySet ps ++ defectsOfMembers rest

end

namespace Node

/-- What keeps a node from being complete: a required text of blanks only or a required list without
an item. Defects are listed in the order in which they are looked for, so the first one is the one
that is reported. -/
def defects : Node → List Defect
  | policy p => p.defects
  | policySet s => s.defects
  | description _ => []
  | xpathVersion text => requireText .xpathVersion "Value" text
  | defaults holder d => d.defects holder
  | target t => t.defects
  | anyOf c alternatives => defectsOfAnyOf c alternatives
  | allOf c ms => defectsOfAllOf c ms
  | targetMatch c m => m.defects c
  | rule r => r.defects
  | condition e => e.defects
  | apply functionId arguments =>
    requireText .apply "FunctionId" functionId ++ Expression.defectsOfAll arguments
  | function functionId => requireText .function "FunctionId" functionId
  | subjectDesignator d => d.defects
  | resourceDesignator d => d.defects .resourceAttributeDesignator
  | actionDesignator d => d.defects .actionAttributeDesignator
  | environmentDesignator d => d.defects .environmentAttributeDesignator
  | selector s => s.defects
  | value v => v.defects
  | .variable variableId => requireText .variableReference "VariableId" variableId
  | variableDefinition d => d.defects
  | obligations os => defectsOfObligations os
  | obligation o => o.defects
  | assignment a => a.defects
  | parameters ps => defectsOfParameters ps
  | parameter p => p.defects
  | scopedParameters s ps => defectsOfScoped s ps
  | reference kind r => r.defects kind

end Node

end AccessPolicy
