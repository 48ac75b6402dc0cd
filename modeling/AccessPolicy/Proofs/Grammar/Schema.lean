import AccessPolicy.Grammar.Decode
import AccessPolicy.Grammar.Encode

namespace AccessPolicy

open Json

/-- What stands in a place of a document. -/
inductive Position where
  /-- A text, a flag or an effect, which can be written in one way only. -/
  | atom
  | list (item : Position)
  /-- An element under the name of its kind, which is one of `kinds`. -/
  | member (kinds : List ElementKind)
  /-- What stands under the name of an element. -/
  | element (k : ElementKind)

/-- A field of a record. -/
structure Entry where
  key : String
  position : Position
  /-- What may be written for a field that may be left out. -/
  standIn : Option Value

namespace Entry

def required (key : String) (position : Position) : Entry :=
  ⟨key, position, none⟩

def optional (key : String) (position : Position) : Entry :=
  ⟨key, position, some .null⟩

def defaulted (key : String) (position : Position) (default : Value) : Entry :=
  ⟨key, position, some default⟩

/-- A list that may be left out when it is empty. -/
def list (key : String) (item : Position) : Entry :=
  defaulted key (.list item) (.array [])

end Entry

/-- The record of an element: its fields, and what stands in each of them. -/
structure Schema where
  layout : Layout
  entries : List Entry
  /-- The kinds that an operand among the fields may have. -/
  operands : List ElementKind

namespace Schema

/-- A record with fields alone. -/
def plain (layout : Layout) (entries : List Entry) : Schema :=
  ⟨layout, entries, []⟩

/-- A record with one list. -/
def listRecord (k item : ElementKind) : Schema :=
  plain ⟨k.localName, [item.localName]⟩ [.required item.localName (.list (.element item))]

def designatorEntries : List Entry :=
  [.required "AttributeId" .atom, .required "DataType" .atom, .optional "Issuer" .atom,
    .defaulted "MustBePresent" .atom (.bool false)]

def designator : Schema :=
  plain Designator.layout designatorEntries

def targetMatch : Schema :=
  ⟨TargetMatch.layout,
    [.required "MatchId" .atom, .required "AttributeValue" (.element .attributeValue)],
    AttributeSource.kinds⟩

def defaults : Schema :=
  plain Defaults.layout [.required "XPathVersion" .atom]

def parameterEntry : Entry :=
  .list "CombinerParameter" (.element .combinerParameter)

def scopedParameters (s : ParameterScope) : Schema :=
  plain s.layout [.required s.idField .atom, parameterEntry]

def reference : Schema :=
  plain IdReference.layout
    [.required "Value" .atom, .optional "Version" .atom, .optional "EarliestVersion" .atom,
      .optional "LatestVersion" .atom]

end Schema

open Schema in
/-- The record of an element. A condition is another element, and a description, the version of a
path language and the head of the expression group have no record. -/
def ElementKind.schema? : ElementKind → Option Schema
  | policy => some <| plain Policy.layout
    [.required "PolicyId" .atom, .defaulted "Version" .atom (.string defaultVersion),
      .required "RuleCombiningAlgId" .atom, .optional "Description" .atom,
      .optional "PolicyDefaults" (.element .policyDefaults),
      .optional "CombinerParameters" (.element .combinerParameters),
      .optional "Target" (.element .target), .list "Content" (.member PolicyMember.kinds),
      .optional "Obligations" (.element .obligations)]
  | policySet => some <| plain PolicySet.layout
    [.required "PolicySetId" .atom, .defaulted "Version" .atom (.string defaultVersion),
      .required "PolicyCombiningAlgId" .atom, .optional "Description" .atom,
      .optional "PolicySetDefaults" (.element .policySetDefaults),
      .optional "Target" (.element .target), .list "Content" (.member SetMember.kinds),
      .optional "Obligations" (.element .obligations)]
  | policyDefaults | policySetDefaults => some defaults
  | target => some <| plain Target.layout
    [.optional "Subjects" (.element .subjects), .optional "Resources" (.element .resources),
      .optional "Actions" (.element .actions), .optional "Environments" (.element .environments)]
  | subjects => some <| listRecord .subjects .subject
  | subject => some <| listRecord .subject .subjectMatch
  | resources => some <| listRecord .resources .resource
  | resource => some <| listRecord .resource .resourceMatch
  | actions => some <| listRecord .actions .action
  | action => some <| listRecord .action .actionMatch
  | environments => some <| listRecord .environments .environment
  | environment => some <| listRecord .environment .environmentMatch
  | subjectMatch | resourceMatch | actionMatch | environmentMatch => some targetMatch
  | rule => some <| plain Rule.layout
    [.required "RuleId" .atom, .required "Effect" .atom, .optional "Description" .atom,
      .optional "Target" (.element .target), .optional "Condition" (.member Expression.kinds)]
  | apply => some <| plain applyLayout
    [.required "FunctionId" .atom, .list "Content" (.member Expression.kinds)]
  | function => some <| plain functionLayout [.required "FunctionId" .atom]
  | subjectAttributeDesignator => some <| plain SubjectDesignator.layout <|
    designatorEntries ++ [.defaulted "SubjectCategory" .atom (.string accessSubject)]
  | resourceAttributeDesignator | actionAttributeDesignator | environmentAttributeDesignator =>
    some designator
  | attributeSelector => some <| plain Selector.layout
    [.required "RequestContextPath" .atom, .required "DataType" .atom,
      .defaulted "MustBePresent" .atom (.bool false)]
  | attributeValue => some <| plain AttributeValue.layout
    [.required "DataType" .atom, .required "Value" .atom]
  | variableDefinition =>
    some ⟨VariableDefinition.layout, [.required "VariableId" .atom], Expression.kinds⟩
  | variableReference => some <| plain variableLayout [.required "VariableId" .atom]
  | obligations => some <| listRecord .obligations .obligation
  | obligation => some <| plain Obligation.layout
    [.required "ObligationId" .atom, .required "FulfillOn" .atom,
      .list "AttributeAssignment" (.element .attributeAssignment)]
  | attributeAssignment => some <| plain AttributeAssignment.layout
    [.required "DataType" .atom, .required "AttributeId" .atom, .required "Value" .atom]
  | combinerParameters => some <| plain parametersLayout [parameterEntry]
  | combinerParameter => some <| plain CombinerParameter.layout
    [.required "ParameterName" .atom, .required "AttributeValue" (.element .attributeValue)]
  | ruleCombinerParameters => some <| scopedParameters .rule
  | policyCombinerParameters => some <| scopedParameters .policy
  | policySetCombinerParameters => some <| scopedParameters .policySet
  | policyIdReference | policySetIdReference => some reference
  | description | xpathVersion | condition | expression => none

/-- The table has the fields of every record, in declared order. -/
theorem ElementKind.keys_of_schema? {k : ElementKind} {s : Schema} (h : k.schema? = some s) :
    s.entries.map Entry.key = s.layout.fields := by
  cases k <;> cases h <;> rfl

/-- Both are objects, or both are arrays that have the same surplus over the fields, if any. -/
def Json.Layout.AlikeFormed (l : Layout) : Value → Value → Prop
  | .object _, .object _ => True
  | .array vs, .array ws =>
    vs.length = ws.length ∨ vs.length ≤ l.fields.length ∧ ws.length ≤ l.fields.length
  | _, _ => False

/-- What stands under a name in an object. -/
def Json.Value.child? (name : String) : Value → Option Value
  | .object ms => member? name ms
  | _ => none

/-- Where a field is written once and left out once, it is written as what stands for it. -/
def Entry.AlikeWritten (e : Entry) : Option Value → Option Value → Prop
  | none, some c => e.standIn = some c
  | some c, none => e.standIn = some c
  | _, _ => True

/-- Both values write the same parts of a record. Other members than fields and operands are of no
account, nor is the order of members. -/
structure Schema.AlikeWritten (s : Schema) (v w : Value) : Prop where
  form : s.layout.AlikeFormed v w
  fields : ∀ e ∈ s.entries, e.AlikeWritten (s.layout.field? e.key v) (s.layout.field? e.key w)
  operands : ∀ k ∈ s.operands, (v.child? k.localName).isSome = (w.child? k.localName).isSome

/-- Both values are spellings of what stands in the place. -/
inductive Respelled : Position → Value → Value → Prop
  | same (p : Position) (v : Value) : Respelled p v v
  | list {item : Position} {vs ws : List Value} (hlength : vs.length = ws.length)
      (hitems : ∀ (i : Nat) (v w : Value), vs[i]? = some v → ws[i]? = some w → Respelled item v w) :
      Respelled (.list item) (.array vs) (.array ws)
  | member {kinds : List ElementKind} {k : ElementKind} {v w : Value} (hkind : k ∈ kinds)
      (hpayload : Respelled (.element k) v w) :
      Respelled (.member kinds) (variant k.localName v) (variant k.localName w)
  | record {k : ElementKind} {s : Schema} {v w : Value} (hschema : k.schema? = some s)
      (halike : s.AlikeWritten v w)
      (hfields : ∀ e ∈ s.entries, ∀ c d, s.layout.field? e.key v = some c →
        s.layout.field? e.key w = some d → Respelled e.position c d)
      (hoperands : ∀ l ∈ s.operands, ∀ c d, v.child? l.localName = some c →
        w.child? l.localName = some d → Respelled (.element l) c d) :
      Respelled (.element k) v w

end AccessPolicy
