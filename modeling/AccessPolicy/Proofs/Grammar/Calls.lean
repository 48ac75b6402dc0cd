import AccessPolicy.Grammar.Build
import Mathlib.Data.List.Basic
import Mathlib.Data.List.Induction

namespace AccessPolicy

/-- Items whose list is left out if there are none. -/
def listed (items : List α) : Option (List α) :=
  if items.isEmpty then none else some items

theorem getD_listed (items : List α) : (listed items).getD [] = items := by
  cases items <;> rfl

theorem listed_concat (items : List α) (item : α) :
    listed (items ++ [item]) = some (items ++ [item]) := by
  simp [listed]

-- The calls are taken from the end: the last one that is about a field decides what it holds.
section

variable {σ γ α : Type} {call : σ → γ → σ}

theorem foldl_keeps (field : σ → α) (hcall : ∀ s c, field (call s c) = field s) (s : σ)
    (calls : List γ) : field (calls.foldl call s) = field s := by
  induction calls using List.reverseRecOn with
  | nil => rfl
  | append_singleton calls c ih =>
    rw [List.foldl_concat, hcall, ih]

/-- Items that calls add at the end stand in the order of the calls. -/
theorem foldl_adds (items : σ → List α) {added? : γ → Option α}
    (hcall : ∀ s c, items (call s c) = items s ++ (added? c).toList) (s : σ) (calls : List γ) :
    items (calls.foldl call s) = items s ++ calls.filterMap added? := by
  induction calls using List.reverseRecOn with
  | nil => rw [List.foldl_nil, List.filterMap_nil, List.append_nil]
  | append_singleton calls c ih =>
    rw [List.foldl_concat, hcall, ih, List.filterMap_append]
    cases hadded : added? c <;> simp [hadded]

/-- The list of such items may be absent until there is one. -/
theorem foldl_lists (field : σ → Option (List α)) {added? : γ → Option α}
    (hcall : ∀ s c, field (call s c) =
      (added? c).elim (field s) fun item => some ((field s).getD [] ++ [item]))
    {s : σ} (hstart : field s = none) (calls : List γ) :
    field (calls.foldl call s) = listed (calls.filterMap added?) := by
  induction calls using List.reverseRecOn with
  | nil => exact hstart
  | append_singleton calls c ih =>
    rw [List.foldl_concat, hcall, ih, getD_listed, List.filterMap_append]
    cases hadded : added? c <;> simp [hadded, listed_concat]

/-- A field that calls set holds what the last of them set it to. -/
theorem foldl_sets_or (field : σ → Option α) {set? : γ → Option α}
    (hcall : ∀ s c, field (call s c) = (set? c).or (field s)) (s : σ) (calls : List γ) :
    field (calls.foldl call s) = (calls.filterMap set?).getLast?.or (field s) := by
  induction calls using List.reverseRecOn with
  | nil => rfl
  | append_singleton calls c ih =>
    rw [List.foldl_concat, hcall, ih, List.filterMap_append]
    cases hset : set? c <;> simp [hset]

theorem foldl_sets (field : σ → α) {set? : γ → Option α}
    (hcall : ∀ s c, field (call s c) = (set? c).getD (field s)) (s : σ) (calls : List γ) :
    field (calls.foldl call s) = (calls.filterMap set?).getLast?.getD (field s) := by
  have hlast : some (field (calls.foldl call s)) =
      (calls.filterMap set?).getLast?.or (some (field s)) :=
    foldl_sets_or (fun s => some (field s)) (fun s c => by rw [hcall, Option.or_some]) s calls
  rw [Option.or_some] at hlast
  exact Option.some.inj hlast

theorem foldl_sets_optional (field : σ → Option α) {set? : γ → Option α}
    (hcall : ∀ s c, field (call s c) = (set? c).or (field s)) {s : σ} (hstart : field s = none)
    (calls : List γ) : field (calls.foldl call s) = (calls.filterMap set?).getLast? := by
  rw [foldl_sets_or field hcall, hstart, Option.or_none]

end

namespace Policy

/-- What can be done to a policy once it is begun. -/
inductive Call where
  | version (text : String)
  | description (text : String)
  | defaults (d : Defaults)
  | target (t : Target)
  | rule (r : Rule)
  | variable (d : VariableDefinition)
  | obligation (o : Obligation)

namespace Call

def version? : Call → Option String
  | version text => some text
  | _ => none

def description? : Call → Option String
  | description text => some text
  | _ => none

def defaults? : Call → Option Defaults
  | defaults d => some d
  | _ => none

def target? : Call → Option Target
  | target t => some t
  | _ => none

def rule? : Call → Option Rule
  | rule r => some r
  | _ => none

def definition? : Call → Option VariableDefinition
  | .variable d => some d
  | _ => none

def member? : Call → Option PolicyMember
  | rule r => some (.rule r)
  | .variable d => some (.variable d)
  | _ => none

def obligation? : Call → Option Obligation
  | obligation o => some o
  | _ => none

/-- The element that the call hands over. -/
def part? : Call → Option Node
  | version _ => none
  | description _ => none
  | defaults d => some (.defaults .policy d)
  | target t => some (.target t)
  | rule r => some (.rule r)
  | .variable d => some (.variableDefinition d)
  | obligation o => some (.obligation o)

end Call

def call (p : Policy) : Call → Policy
  | .version text => p.withVersion text
  | .description text => p.withDescription text
  | .defaults d => p.withDefaults d
  | .target t => p.withTarget t
  | .rule r => p.withRule r
  | .variable d => p.withVariable d
  | .obligation o => p.withObligation o

def build (policyId algorithm : String) (calls : List Call) : Policy :=
  calls.foldl call (new policyId algorithm)

/-- A call leaves alone whatever it is not about. -/
theorem call_eq (p : Policy) (c : Call) :
    p.call c =
      { p with
        version := c.version?.getD p.version
        description := c.description?.or p.description
        defaults := c.defaults?.or p.defaults
        target := c.target?.or p.target
        content := p.content ++ c.member?.toList
        obligations := c.obligation?.elim p.obligations fun o =>
          some (p.obligations.getD [] ++ [o]) } := by
  cases c <;>
    simp [call, withVersion, withDescription, withDefaults, withTarget, withRule, withVariable,
      withMember, withObligation, Call.version?, Call.description?, Call.defaults?, Call.target?,
      Call.member?, Call.obligation?]

/-- Members and obligations stand in the order of the calls, and every other field holds what it was
last set to. -/
structure Follows (p : Policy) (policyId algorithm : String) (calls : List Call) : Prop where
  policyId : p.policyId = policyId
  version : p.version = (calls.filterMap Call.version?).getLast?.getD defaultVersion
  algorithm : p.algorithm = algorithm
  description : p.description = (calls.filterMap Call.description?).getLast?
  defaults : p.defaults = (calls.filterMap Call.defaults?).getLast?
  parameters : p.parameters = none
  target : p.target = (calls.filterMap Call.target?).getLast?
  content : p.content = calls.filterMap Call.member?
  rules : p.rules = calls.filterMap Call.rule?
  definitions : p.variables = calls.filterMap Call.definition?
  obligations : p.obligations = listed (calls.filterMap Call.obligation?)

theorem build_follows (policyId algorithm : String) (calls : List Call) :
    (build policyId algorithm calls).Follows policyId algorithm calls := by
  have hcontent : (build policyId algorithm calls).content = calls.filterMap Call.member? :=
    foldl_adds content (fun p c => by rw [call_eq]) _ calls
  exact {
    policyId := foldl_keeps Policy.policyId (fun p c => by rw [call_eq]) _ calls
    version := foldl_sets version (fun p c => by rw [call_eq]) _ calls
    algorithm := foldl_keeps Policy.algorithm (fun p c => by rw [call_eq]) _ calls
    description := foldl_sets_optional description (fun p c => by rw [call_eq]) rfl calls
    defaults := foldl_sets_optional defaults (fun p c => by rw [call_eq]) rfl calls
    parameters := foldl_keeps parameters (fun p c => by rw [call_eq]) _ calls
    target := foldl_sets_optional target (fun p c => by rw [call_eq]) rfl calls
    content := hcontent
    rules := by
      rw [rules, hcontent, List.filterMap_filterMap]
      congr
      funext c
      cases c <;> rfl
    definitions := by
      rw [Policy.variables, hcontent, List.filterMap_filterMap]
      congr
      funext c
      cases c <;> rfl
    obligations :=
      foldl_lists obligations (fun p c => by rw [call_eq]) rfl calls }

end Policy

namespace PolicySet

/-- What can be done to a policy set once it is begun. -/
inductive Call where
  | version (text : String)
  | description (text : String)
  | target (t : Target)
  | policy (p : Policy)
  | policySet (inner : PolicySet)
  | reference (kind : ArtifactKind) (r : IdReference)

namespace Call

def version? : Call → Option String
  | version text => some text
  | _ => none

def description? : Call → Option String
  | description text => some text
  | _ => none

def target? : Call → Option Target
  | target t => some t
  | _ => none

def member? : Call → Option (SetMember PolicySet)
  | policy p => some (.policy p)
  | policySet inner => some (.policySet inner)
  | reference kind r => some (.reference kind r)
  | _ => none

/-- The element that the call hands over. -/
def part? : Call → Option Node
  | version _ => none
  | description _ => none
  | target t => some (.target t)
  | policy p => some (.policy p)
  | policySet inner => some (.policySet inner)
  | reference kind r => some (.reference kind r)

end Call

def call (s : PolicySet) : Call → PolicySet
  | .version text => s.withVersion text
  | .description text => s.withDescription text
  | .target t => s.withTarget t
  | .policy p => s.withPolicy p
  | .policySet inner => s.withPolicySet inner
  | .reference kind r => s.withReference kind r

def build (setId algorithm : String) (calls : List Call) : PolicySet :=
  calls.foldl call (new setId algorithm)

theorem call_eq (s : PolicySet) (c : Call) :
    s.call c =
      { s with
        version := c.version?.getD s.version
        description := c.description?.or s.description
        target := c.target?.or s.target
        content := s.content ++ c.member?.toList } := by
  cases c <;>
    simp [call, withVersion, withDescription, withTarget, withPolicy, withPolicySet, withReference,
      withMember, Call.version?, Call.description?, Call.target?, Call.member?]

structure Follows (s : PolicySet) (setId algorithm : String) (calls : List Call) : Prop where
  setId : s.setId = setId
  version : s.version = (calls.filterMap Call.version?).getLast?.getD defaultVersion
  algorithm : s.algorithm = algorithm
  description : s.description = (calls.filterMap Call.description?).getLast?
  defaults : s.defaults = none
  target : s.target = (calls.filterMap Call.target?).getLast?
  content : s.content = calls.filterMap Call.member?
  obligations : s.obligations = none

theorem build_follows (setId algorithm : String) (calls : List Call) :
    (build setId algorithm calls).Follows setId algorithm calls where
  setId := foldl_keeps PolicySet.setId (fun s c => by rw [call_eq]) _ calls
  version := foldl_sets version (fun s c => by rw [call_eq]) _ calls
  algorithm := foldl_keeps PolicySet.algorithm (fun s c => by rw [call_eq]) _ calls
  description := foldl_sets_optional description (fun s c => by rw [call_eq]) rfl calls
  defaults := foldl_keeps defaults (fun s c => by rw [call_eq]) _ calls
  target := foldl_sets_optional target (fun s c => by rw [call_eq]) rfl calls
  content := foldl_adds content (fun s c => by rw [call_eq]) _ calls
  obligations := foldl_keeps obligations (fun s c => by rw [call_eq]) _ calls

end PolicySet

namespace Rule

/-- What can be done to a rule once it is begun. -/
inductive Call where
  | description (text : String)
  | target (t : Target)
  | condition (e : Expression)

namespace Call

def description? : Call → Option String
  | description text => some text
  | _ => none

def target? : Call → Option Target
  | target t => some t
  | _ => none

def condition? : Call → Option Expression
  | condition e => some e
  | _ => none

/-- The element that the call hands over. -/
def part? : Call → Option Node
  | description _ => none
  | target t => some (.target t)
  | condition e => some (.expression e)

end Call

def call (r : Rule) : Call → Rule
  | .description text => r.withDescription text
  | .target t => r.withTarget t
  | .condition e => r.withCondition e

def build (ruleId : String) (effect : Effect) (calls : List Call) : Rule :=
  calls.foldl call (new ruleId effect)

theorem call_eq (r : Rule) (c : Call) :
    r.call c =
      { r with
        description := c.description?.or r.description
        target := c.target?.or r.target
        condition := c.condition?.or r.condition } := by
  cases c <;> rfl

structure Follows (r : Rule) (ruleId : String) (effect : Effect) (calls : List Call) : Prop where
  ruleId : r.ruleId = ruleId
  effect : r.effect = effect
  description : r.description = (calls.filterMap Call.description?).getLast?
  target : r.target = (calls.filterMap Call.target?).getLast?
  condition : r.condition = (calls.filterMap Call.condition?).getLast?

theorem build_follows (ruleId : String) (effect : Effect) (calls : List Call) :
    (build ruleId effect calls).Follows ruleId effect calls where
  ruleId := foldl_keeps Rule.ruleId (fun r c => by rw [call_eq]) _ calls
  effect := foldl_keeps Rule.effect (fun r c => by rw [call_eq]) _ calls
  description := foldl_sets_optional description (fun r c => by rw [call_eq]) rfl calls
  target := foldl_sets_optional target (fun r c => by rw [call_eq]) rfl calls
  condition := foldl_sets_optional condition (fun r c => by rw [call_eq]) rfl calls

end Rule

namespace Target

/-- The alternatives that the target has in a category. -/
def alternatives (t : Target) : Category → Option AnyOf
  | .subject => t.subjects
  | .resource => t.resources
  | .action => t.actions
  | .environment => t.environments

/-- What can be done to a target: one category gets one more alternative. -/
structure Call where
  category : Category
  alternative : AllOf

/-- What the call adds to a category. -/
def Call.alternative? (k : Category) (c : Call) : Option AllOf :=
  if c.category = k then some c.alternative else none

/-- The element that the call hands over. -/
def Call.part (c : Call) : Node :=
  .allOf c.category c.alternative

def call (t : Target) (c : Call) : Target :=
  t.withAlternative c.category c.alternative

def build (calls : List Call) : Target :=
  calls.foldl call any

theorem alternatives_call (t : Target) (c : Call) (k : Category) :
    (t.call c).alternatives k = (c.alternative? k).elim (t.alternatives k) fun ms =>
      some ((t.alternatives k).getD [] ++ [ms]) := by
  obtain ⟨category, ms⟩ := c
  cases category <;> cases k <;> rfl

structure Follows (t : Target) (calls : List Call) : Prop where
  alternatives (k : Category) : t.alternatives k = listed (calls.filterMap (Call.alternative? k))

theorem build_follows (calls : List Call) : (build calls).Follows calls where
  alternatives k :=
    foldl_lists (fun t => t.alternatives k) (fun t c => alternatives_call t c k)
      (by cases k <;> rfl) calls

end Target

namespace Application

def build (functionId : String) (arguments : List Expression) : Application :=
  arguments.foldl withArgument (new functionId)

theorem functionId_withArgument (a : Application) (e : Expression) :
    (a.withArgument e).functionId = a.functionId := rfl

theorem arguments_withArgument (a : Application) (e : Expression) :
    (a.withArgument e).arguments = a.arguments ++ (some e).toList := rfl

structure Follows (a : Application) (functionId : String) (arguments : List Expression) : Prop where
  functionId : a.functionId = functionId
  arguments : a.arguments = arguments

theorem build_follows (functionId : String) (arguments : List Expression) :
    (build functionId arguments).Follows functionId arguments where
  functionId := foldl_keeps Application.functionId functionId_withArgument _ arguments
  arguments :=
    (foldl_adds Application.arguments arguments_withArgument (new functionId) arguments).trans
      List.filterMap_some

end Application

end AccessPolicy
