import AccessPolicy.Grammar.Basic

namespace AccessPolicy

namespace Policy

def new (policyId algorithm : String) : Policy where
  policyId := policyId
  version := defaultVersion
  algorithm := algorithm
  description := none
  defaults := none
  parameters := none
  target := none
  content := []
  obligations := none

def withVersion (p : Policy) (version : String) : Policy :=
  { p with version := version }

def withDescription (p : Policy) (description : String) : Policy :=
  { p with description := some description }

def withDefaults (p : Policy) (defaults : Defaults) : Policy :=
  { p with defaults := some defaults }

def withTarget (p : Policy) (target : Target) : Policy :=
  { p with target := some target }

def withMember (p : Policy) (m : PolicyMember) : Policy :=
  { p with content := p.content ++ [m] }

def withRule (p : Policy) (r : Rule) : Policy :=
  p.withMember (.rule r)

def withVariable (p : Policy) (d : VariableDefinition) : Policy :=
  p.withMember (.variable d)

/-- Adds an obligation, the first one along with the list that holds them. -/
def withObligation (p : Policy) (o : Obligation) : Policy :=
  { p with obligations := some (p.obligations.getD [] ++ [o]) }

end Policy

namespace PolicySet

def new (setId algorithm : String) : PolicySet where
  setId := setId
  version := defaultVersion
  algorithm := algorithm
  description := none
  defaults := none
  target := none
  content := []
  obligations := none

def withVersion (s : PolicySet) (version : String) : PolicySet :=
  { s with version := version }

def withDescription (s : PolicySet) (description : String) : PolicySet :=
  { s with description := some description }

def withTarget (s : PolicySet) (target : Target) : PolicySet :=
  { s with target := some target }

def withMember (s : PolicySet) (m : SetMember PolicySet) : PolicySet :=
  { s with content := s.content ++ [m] }

def withPolicy (s : PolicySet) (p : Policy) : PolicySet :=
  s.withMember (.policy p)

def withPolicySet (s inner : PolicySet) : PolicySet :=
  s.withMember (.policySet inner)

def withReference (s : PolicySet) (kind : ArtifactKind) (r : IdReference) : PolicySet :=
  s.withMember (.reference kind r)

end PolicySet

namespace Rule

def new (ruleId : String) (effect : Effect) : Rule :=
  ⟨ruleId, effect, none, none, none⟩

def withDescription (r : Rule) (description : String) : Rule :=
  { r with description := some description }

def withTarget (r : Rule) (target : Target) : Rule :=
  { r with target := some target }

def withCondition (r : Rule) (condition : Expression) : Rule :=
  { r with condition := some condition }

end Rule

namespace Target

/-- The target of every request. -/
def any : Target := ⟨none, none, none, none⟩

/-- Adds an alternative to one category. -/
def withAlternative (t : Target) (c : Category) (ms : AllOf) : Target :=
  let extend (alternatives : Option AnyOf) := some (alternatives.getD [] ++ [ms])
  match c with
  | .subject => { t with subjects := extend t.subjects }
  | .resource => { t with resources := extend t.resources }
  | .action => { t with actions := extend t.actions }
  | .environment => { t with environments := extend t.environments }

end Target

def AttributeValue.new (dataType value : String) : AttributeValue :=
  ⟨dataType, value⟩

namespace Designator

def new (attributeId dataType : String) : Designator :=
  ⟨attributeId, dataType, none, false⟩

def required (d : Designator) : Designator :=
  { d with mustBePresent := true }

end Designator

def SubjectDesignator.new (attributeId dataType : String) : SubjectDesignator :=
  ⟨Designator.new attributeId dataType, accessSubject⟩

namespace IdReference

/-- A reference to any version. -/
def new (value : String) : IdReference :=
  ⟨value, none, none, none⟩

def withVersion (r : IdReference) (version : String) : IdReference :=
  { r with version := some version }

end IdReference

/-- A function and the arguments that it is applied to. -/
structure Application where
  functionId : String
  arguments : List Expression

namespace Application

def new (functionId : String) : Application :=
  ⟨functionId, []⟩

def withArgument (a : Application) (e : Expression) : Application :=
  { a with arguments := a.arguments ++ [e] }

def toExpression (a : Application) : Expression :=
  .apply a.functionId a.arguments

end Application

def Expression.literal (dataType value : String) : Expression :=
  .value ⟨dataType, value⟩

end AccessPolicy
