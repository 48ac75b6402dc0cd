import AccessPolicy.Grammar.Basic
import AccessPolicy.Json.Decode

namespace AccessPolicy

open Json

/-- The error for a kind that may not stand where one of `kinds` is expected. -/
def unexpectedKind (k : ElementKind) (kinds : List ElementKind) : DecodeError :=
  .unknownVariant k.localName (kinds.map ElementKind.localName)

/-- A member under the name of its kind, which must be one of `kinds`. -/
def decodeMember (kinds : List ElementKind) (payload : ElementKind → Decoder α) :
    Decoder α := fun v =>
  (tagged (ElementKind.tableOf kinds) v).bind fun m => payload m.1.1 m.1.2

def Effect.table : List (String × Effect) :=
  [("Permit", .permit), ("Deny", .deny)]

def Effect.decode : Decoder Effect :=
  named table

def AttributeValue.layout : Layout := ⟨"AttributeValue", ["DataType", "Value"]⟩

def AttributeValue.decode (place : Place) (v : Value) : Except DecodeError AttributeValue :=
  layout.finish place v
    (AttributeValue.mk <$> layout.required v "DataType" string <*> layout.required v "Value" string)

def Designator.layout : Layout :=
  ⟨"AttributeDesignator", ["AttributeId", "DataType", "Issuer", "MustBePresent"]⟩

/-- The fields that all designators have. -/
def Designator.fieldsOf (l : Layout) (v : Value) : Partial Designator :=
  Designator.mk <$> l.required v "AttributeId" string <*> l.required v "DataType" string <*>
    l.optional v "Issuer" string <*> l.defaulted v "MustBePresent" false bool

def Designator.decode (place : Place) (v : Value) : Except DecodeError Designator :=
  layout.finish place v (fieldsOf layout v)

def SubjectDesignator.layout : Layout :=
  ⟨"SubjectAttributeDesignator",
    ["AttributeId", "DataType", "Issuer", "MustBePresent", "SubjectCategory"]⟩

def SubjectDesignator.decode (place : Place) (v : Value) : Except DecodeError SubjectDesignator :=
  layout.finish place v
    (SubjectDesignator.mk <$> Designator.fieldsOf layout v <*>
      layout.defaulted v "SubjectCategory" accessSubject string)

def Selector.layout : Layout :=
  ⟨"AttributeSelector", ["RequestContextPath", "DataType", "MustBePresent"]⟩

def Selector.decode (place : Place) (v : Value) : Except DecodeError Selector :=
  layout.finish place v
    (Selector.mk <$> layout.required v "RequestContextPath" string <*>
      layout.required v "DataType" string <*> layout.defaulted v "MustBePresent" false bool)

namespace AttributeSource

def kinds : List ElementKind :=
  [.subjectAttributeDesignator, .resourceAttributeDesignator, .actionAttributeDesignator,
    .environmentAttributeDesignator, .attributeSelector]

def decodePayload (place : Place) (k : ElementKind) (v : Value) :
    Except DecodeError AttributeSource :=
  match k with
  | .subjectAttributeDesignator => (SubjectDesignator.decode place v).map subjectDesignator
  | .resourceAttributeDesignator => (Designator.decode place v).map resourceDesignator
  | .actionAttributeDesignator => (Designator.decode place v).map actionDesignator
  | .environmentAttributeDesignator => (Designator.decode place v).map environmentDesignator
  | .attributeSelector => (Selector.decode place v).map selector
  | k => .error (unexpectedKind k kinds)

def decode : Decoder AttributeSource :=
  decodeMember kinds (decodePayload .standing)

end AttributeSource

def functionLayout : Layout := ⟨"Function", ["FunctionId"]⟩

def variableLayout : Layout := ⟨"VariableReference", ["VariableId"]⟩

def applyLayout : Layout := ⟨"Apply", ["FunctionId", "Content"]⟩

namespace Expression

def kinds : List ElementKind :=
  [.apply, .function, .subjectAttributeDesignator, .resourceAttributeDesignator,
    .actionAttributeDesignator, .environmentAttributeDesignator, .attributeSelector,
    .attributeValue, .variableReference]

def decodePayload (place : Place) (k : ElementKind) (v : Value) : Except DecodeError Expression :=
  match k with
  | .apply =>
    applyLayout.finish place v
      (Expression.apply <$> applyLayout.required v "FunctionId" string <*>
        applyLayout.listBelow v "Content" fun i _hi =>
          match tagged (ElementKind.tableOf kinds) i with
          | .error e => .error e
          | .ok ⟨(kind, payload), _hpayload⟩ => decodePayload place kind payload)
  | .function =>
    functionLayout.finish place v
      (Expression.function <$> functionLayout.required v "FunctionId" string)
  | .subjectAttributeDesignator => (SubjectDesignator.decode place v).map subjectDesignator
  | .resourceAttributeDesignator => (Designator.decode place v).map resourceDesignator
  | .actionAttributeDesignator => (Designator.decode place v).map actionDesignator
  | .environmentAttributeDesignator => (Designator.decode place v).map environmentDesignator
  | .attributeSelector => (Selector.decode place v).map selector
  | .attributeValue => (AttributeValue.decode place v).map value
  | .variableReference =>
    variableLayout.finish place v
      (Expression.variable <$> variableLayout.required v "VariableId" string)
  | k => .error (unexpectedKind k kinds)
termination_by v.depth
decreasing_by exact Nat.lt_trans _hpayload _hi

def decode (place : Place) : Decoder Expression :=
  decodeMember kinds (decodePayload place)

/-- The arguments of a function application are expressions in the same place. -/
theorem decodePayload_apply (place : Place) (v : Value) :
    decodePayload place .apply v =
      applyLayout.finish place v
        (Expression.apply <$> applyLayout.required v "FunctionId" string <*>
          applyLayout.defaulted v "Content" [] (list (decode place))) := by
  rw [decodePayload]
  congr 3
  funext
  simp only [Layout.listBelow, Layout.defaulted, list, decode, decodeMember]
  congr 1
  funext c hc
  congr 1
  funext i hi
  cases tagged (ElementKind.tableOf kinds) i <;> rfl

end Expression

def TargetMatch.layout : Layout := ⟨"TargetMatch", ["MatchId", "AttributeValue"]⟩

def TargetMatch.decode : Decoder TargetMatch := fun v =>
  layout.finishObject v
    (TargetMatch.mk <$> layout.required v "MatchId" string <*>
      layout.required v "AttributeValue" (AttributeValue.decode .standing) <*>
      merged "MatchSource" (ElementKind.tableOf AttributeSource.kinds) v
        (AttributeSource.decodePayload .merged))

/-- A record with one list. -/
def decodeListRecord (k : ElementKind) (item : ElementKind) (decode : Decoder α) :
    Decoder (List α) :=
  fun v =>
    let l : Layout := ⟨k.localName, [item.localName]⟩
    l.finish .standing v (l.required v item.localName (list decode))

def decodeAllOf (c : Category) : Decoder AllOf :=
  decodeListRecord c.allOf c.targetMatch TargetMatch.decode

def decodeAnyOf (c : Category) : Decoder AnyOf :=
  decodeListRecord c.anyOf c.allOf (decodeAllOf c)

def Target.layout : Layout := ⟨"Target", ["Subjects", "Resources", "Actions", "Environments"]⟩

def Target.decode : Decoder Target := fun v =>
  layout.finish .standing v
    (Target.mk <$> layout.optional v "Subjects" (decodeAnyOf .subject) <*>
      layout.optional v "Resources" (decodeAnyOf .resource) <*>
      layout.optional v "Actions" (decodeAnyOf .action) <*>
      layout.optional v "Environments" (decodeAnyOf .environment))

def Defaults.layout : Layout := ⟨"Defaults", ["XPathVersion"]⟩

def Defaults.decode : Decoder Defaults := fun v =>
  layout.finish .standing v (Defaults.mk <$> layout.required v "XPathVersion" string)

def AttributeAssignment.layout : Layout :=
  ⟨"AttributeAssignment", ["DataType", "AttributeId", "Value"]⟩

def AttributeAssignment.decode : Decoder AttributeAssignment := fun v =>
  layout.finish .standing v
    (AttributeAssignment.mk <$> layout.required v "DataType" string <*>
      layout.required v "AttributeId" string <*> layout.required v "Value" string)

def Obligation.layout : Layout :=
  ⟨"Obligation", ["ObligationId", "FulfillOn", "AttributeAssignment"]⟩

def Obligation.decode : Decoder Obligation := fun v =>
  layout.finish .standing v
    (Obligation.mk <$> layout.required v "ObligationId" string <*>
      layout.required v "FulfillOn" Effect.decode <*>
      layout.defaulted v "AttributeAssignment" [] (list AttributeAssignment.decode))

def decodeObligations : Decoder (List Obligation) :=
  decodeListRecord .obligations .obligation Obligation.decode

def CombinerParameter.layout : Layout :=
  ⟨"CombinerParameter", ["ParameterName", "AttributeValue"]⟩

def CombinerParameter.decode : Decoder CombinerParameter := fun v =>
  layout.finish .standing v
    (CombinerParameter.mk <$> layout.required v "ParameterName" string <*>
      layout.required v "AttributeValue" (AttributeValue.decode .standing))

def parametersLayout : Layout := ⟨"CombinerParameters", ["CombinerParameter"]⟩

/-- The list of parameters, which every record that has one may leave out. -/
def parametersOf (l : Layout) (v : Value) : Partial (List CombinerParameter) :=
  l.defaulted v "CombinerParameter" [] (list CombinerParameter.decode)

def decodeParameters : Decoder (List CombinerParameter) := fun v =>
  parametersLayout.finish .standing v (parametersOf parametersLayout v)

def ParameterScope.layout (s : ParameterScope) : Layout :=
  ⟨s.kind.localName, [s.idField, "CombinerParameter"]⟩

def decodeScoped (s : ParameterScope) : Decoder ScopedParameters := fun v =>
  s.layout.finish .standing v
    (ScopedParameters.mk <$> s.layout.required v s.idField string <*> parametersOf s.layout v)

def VariableDefinition.layout : Layout := ⟨"VariableDefinition", ["VariableId"]⟩

def VariableDefinition.decode : Decoder VariableDefinition := fun v =>
  layout.finishObject v
    (VariableDefinition.mk <$> layout.required v "VariableId" string <*>
      merged "Expression" (ElementKind.tableOf Expression.kinds) v
        (Expression.decodePayload .merged))

def Rule.layout : Layout := ⟨"Rule", ["RuleId", "Effect", "Description", "Target", "Condition"]⟩

def Rule.decode : Decoder Rule := fun v =>
  layout.finish .standing v
    (Rule.mk <$> layout.required v "RuleId" string <*> layout.required v "Effect" Effect.decode <*>
      layout.optional v "Description" string <*> layout.optional v "Target" Target.decode <*>
      layout.optional v "Condition" (Expression.decode .standing))

namespace PolicyMember

def kinds : List ElementKind :=
  [.combinerParameters, .ruleCombinerParameters, .variableDefinition, .rule]

def decodePayload (k : ElementKind) (v : Value) : Except DecodeError PolicyMember :=
  match k with
  | .combinerParameters => (decodeParameters v).map parameters
  | .ruleCombinerParameters => (decodeScoped .rule v).map ruleParameters
  | .variableDefinition => (VariableDefinition.decode v).map PolicyMember.variable
  | .rule => (Rule.decode v).map rule
  | k => .error (unexpectedKind k kinds)

def decode : Decoder PolicyMember :=
  decodeMember kinds decodePayload

end PolicyMember

def Policy.layout : Layout :=
  ⟨"Policy", ["PolicyId", "Version", "RuleCombiningAlgId", "Description", "PolicyDefaults",
    "CombinerParameters", "Target", "Content", "Obligations"]⟩

def Policy.decode : Decoder Policy := fun v =>
  layout.finish .standing v
    (Policy.mk <$> layout.required v "PolicyId" string <*>
      layout.defaulted v "Version" defaultVersion string <*>
      layout.required v "RuleCombiningAlgId" string <*>
      layout.optional v "Description" string <*>
      layout.optional v "PolicyDefaults" Defaults.decode <*>
      layout.optional v "CombinerParameters" decodeParameters <*>
      layout.optional v "Target" Target.decode <*>
      layout.defaulted v "Content" [] (list PolicyMember.decode) <*>
      layout.optional v "Obligations" decodeObligations)

def IdReference.layout : Layout :=
  ⟨"IdReference", ["Value", "Version", "EarliestVersion", "LatestVersion"]⟩

def IdReference.decode : Decoder IdReference := fun v =>
  layout.finish .standing v
    (IdReference.mk <$> layout.required v "Value" string <*>
      layout.optional v "Version" string <*> layout.optional v "EarliestVersion" string <*>
      layout.optional v "LatestVersion" string)

namespace SetMember

def kinds : List ElementKind :=
  [.policySet, .policy, .policySetIdReference, .policyIdReference, .combinerParameters,
    .policyCombinerParameters, .policySetCombinerParameters]

/-- Reads a member; `set` is what `v` is as a set. -/
def decodePayload (set : Unit → Except DecodeError PolicySet) (k : ElementKind) (v : Value) :
    Except DecodeError (SetMember PolicySet) :=
  match k with
  | .policySet => (set ()).map policySet
  | .policy => (Policy.decode v).map policy
  | .policySetIdReference => (IdReference.decode v).map (reference .policySet)
  | .policyIdReference => (IdReference.decode v).map (reference .policy)
  | .combinerParameters => (decodeParameters v).map parameters
  | .policyCombinerParameters => (decodeScoped .policy v).map policyParameters
  | .policySetCombinerParameters => (decodeScoped .policySet v).map setParameters
  | k => .error (unexpectedKind k kinds)

end SetMember

namespace PolicySet

def layout : Layout :=
  ⟨"PolicySet", ["PolicySetId", "Version", "PolicyCombiningAlgId", "Description",
    "PolicySetDefaults", "Target", "Content", "Obligations"]⟩

/-- The record that the fields of `v` and the given content make up. -/
def fieldsOf (v : Value) (content : Partial (List (SetMember PolicySet))) : Partial PolicySet :=
  PolicySet.mk <$> layout.required v "PolicySetId" string <*>
    layout.defaulted v "Version" defaultVersion string <*>
    layout.required v "PolicyCombiningAlgId" string <*>
    layout.optional v "Description" string <*>
    layout.optional v "PolicySetDefaults" Defaults.decode <*>
    layout.optional v "Target" Target.decode <*>
    content <*>
    layout.optional v "Obligations" decodeObligations

def decode (v : Value) : Except DecodeError PolicySet :=
  layout.finish .standing v
    (fieldsOf v (layout.listBelow v "Content" fun i _hi =>
      match tagged (ElementKind.tableOf SetMember.kinds) i with
      | .error e => .error e
      | .ok ⟨(kind, payload), _hpayload⟩ =>
        SetMember.decodePayload (fun _ => decode payload) kind payload))
termination_by v.depth
decreasing_by exact Nat.lt_trans _hpayload _hi

end PolicySet

def SetMember.decode : Decoder (SetMember PolicySet) :=
  decodeMember kinds fun k v => decodePayload (fun _ => PolicySet.decode v) k v

/-- The sets inside a set are read like the set itself. -/
theorem PolicySet.decode_eq (v : Value) :
    decode v = layout.finish .standing v
      (fieldsOf v (layout.defaulted v "Content" [] (list SetMember.decode))) := by
  rw [decode]
  congr 2
  simp only [Layout.listBelow, Layout.defaulted, list, SetMember.decode, decodeMember]
  congr 1
  funext c hc
  congr 1
  funext i hi
  cases tagged (ElementKind.tableOf SetMember.kinds) i <;> rfl

namespace Node

def kinds : List ElementKind :=
  ElementKind.all.filter fun k => !k.isAbstract

def decodePayload (k : ElementKind) (v : Value) : Except DecodeError Node :=
  match k with
  | .policy => (Policy.decode v).map policy
  | .policySet => (PolicySet.decode v).map policySet
  | .description => (string v).map description
  | .xpathVersion => (string v).map xpathVersion
  | .policyDefaults => (Defaults.decode v).map (defaults .policy)
  | .policySetDefaults => (Defaults.decode v).map (defaults .policySet)
  | .target => (Target.decode v).map target
  | .subjects => (decodeAnyOf .subject v).map (anyOf .subject)
  | .resources => (decodeAnyOf .resource v).map (anyOf .resource)
  | .actions => (decodeAnyOf .action v).map (anyOf .action)
  | .environments => (decodeAnyOf .environment v).map (anyOf .environment)
  | .subject => (decodeAllOf .subject v).map (allOf .subject)
  | .resource => (decodeAllOf .resource v).map (allOf .resource)
  | .action => (decodeAllOf .action v).map (allOf .action)
  | .environment => (decodeAllOf .environment v).map (allOf .environment)
  | .subjectMatch => (TargetMatch.decode v).map (targetMatch .subject)
  | .resourceMatch => (TargetMatch.decode v).map (targetMatch .resource)
  | .actionMatch => (TargetMatch.decode v).map (targetMatch .action)
  | .environmentMatch => (TargetMatch.decode v).map (targetMatch .environment)
  | .rule => (Rule.decode v).map rule
  | .condition => (Expression.decode .standing v).map condition
  | .apply =>
    applyLayout.finish .standing v
      (Node.apply <$> applyLayout.required v "FunctionId" string <*>
        applyLayout.defaulted v "Content" [] (list (Expression.decode .standing)))
  | .function =>
    functionLayout.finish .standing v
      (Node.function <$> functionLayout.required v "FunctionId" string)
  | .subjectAttributeDesignator => (SubjectDesignator.decode .standing v).map subjectDesignator
  | .resourceAttributeDesignator => (Designator.decode .standing v).map resourceDesignator
  | .actionAttributeDesignator => (Designator.decode .standing v).map actionDesignator
  | .environmentAttributeDesignator => (Designator.decode .standing v).map environmentDesignator
  | .attributeSelector => (Selector.decode .standing v).map selector
  | .attributeValue => (AttributeValue.decode .standing v).map value
  | .variableDefinition => (VariableDefinition.decode v).map variableDefinition
  | .variableReference =>
    variableLayout.finish .standing v
      (Node.variable <$> variableLayout.required v "VariableId" string)
  | .obligations => (decodeObligations v).map obligations
  | .obligation => (Obligation.decode v).map obligation
  | .attributeAssignment => (AttributeAssignment.decode v).map assignment
  | .combinerParameters => (decodeParameters v).map parameters
  | .combinerParameter => (CombinerParameter.decode v).map parameter
  | .ruleCombinerParameters => (decodeScoped .rule v).map (scopedParameters .rule)
  | .policyCombinerParameters => (decodeScoped .policy v).map (scopedParameters .policy)
  | .policySetCombinerParameters => (decodeScoped .policySet v).map (scopedParameters .policySet)
  | .policyIdReference => (IdReference.decode v).map (reference .policy)
  | .policySetIdReference => (IdReference.decode v).map (reference .policySet)
  | .expression => .error (unexpectedKind .expression kinds)

/-- A payload is read under the kind that its key names. -/
def decode : Decoder Node :=
  decodeMember kinds decodePayload

end Node

end AccessPolicy
