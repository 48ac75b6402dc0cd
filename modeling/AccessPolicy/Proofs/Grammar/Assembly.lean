import AccessPolicy.Proofs.Grammar.Calls
import AccessPolicy.Proofs.Grammar.Completeness

namespace AccessPolicy

theorem requireText_eq_nil_iff {k : ElementKind} {field text : String} :
    requireText k field text = [] ↔ ¬ Text.blank text := by
  simp [requireText]

theorem defectsIn_some (defects : α → List Defect) (child : α) :
    defectsIn defects (some child) = defects child :=
  List.flatMap_singleton ..

/-- A list that must have an item is complete with one more complete item, also if that is the first
one. -/
theorem defects_concat_eq_nil {k child : ElementKind} {defects : α → List Defect}
    {items? : Option (List α)} {item : α}
    (hitems :
      defectsIn (fun items => requireSome k child items ++ items.flatMap defects) items? = [])
    (hitem : defects item = []) :
    defectsIn (fun items => requireSome k child items ++ items.flatMap defects)
      (some (items?.getD [] ++ [item])) = [] := by
  have hbefore : (items?.getD []).flatMap defects = [] := by
    cases items? with
    | none => rfl
    | some items =>
      rw [defectsIn_some, List.append_eq_nil_iff] at hitems
      exact hitems.2
  simp [defectsIn_some, requireSome, hbefore, hitem]

theorem flatMap_concat_eq_nil {defects : α → List Defect} {items : List α} {item : α}
    (hitems : items.flatMap defects = []) (hitem : defects item = []) :
    (items ++ [item]).flatMap defects = [] := by
  rw [List.flatMap_append, hitems, List.nil_append, List.flatMap_singleton, hitem]

theorem not_blank_defaultVersion : ¬ Text.blank defaultVersion := by
  decide

namespace Policy

/-- A policy with all that it must have. -/
structure Complete (p : Policy) : Prop where
  policyId : ¬ Text.blank p.policyId
  version : ¬ Text.blank p.version
  algorithm : ¬ Text.blank p.algorithm
  defaults : defectsIn (Defaults.defects .policy) p.defaults = []
  parameters : defectsIn defectsOfParameters p.parameters = []
  target : defectsIn Target.defects p.target = []
  content : p.content.flatMap PolicyMember.defects = []
  obligations : defectsIn defectsOfObligations p.obligations = []

theorem Complete.defects_eq_nil {p : Policy} (hp : p.Complete) : p.defects = [] := by
  simp only [defects, List.append_eq_nil_iff, requireText_eq_nil_iff]
  exact ⟨⟨⟨⟨⟨⟨⟨hp.policyId, hp.version⟩, hp.algorithm⟩, hp.defaults⟩, hp.parameters⟩, hp.target⟩,
    hp.content⟩, hp.obligations⟩

theorem complete_new {policyId algorithm : String} (hid : ¬ Text.blank policyId)
    (halgorithm : ¬ Text.blank algorithm) : (new policyId algorithm).Complete where
  policyId := hid
  version := not_blank_defaultVersion
  algorithm := halgorithm
  defaults := rfl
  parameters := rfl
  target := rfl
  content := rfl
  obligations := rfl

theorem Complete.call {p : Policy} (hp : p.Complete) {c : Call}
    (htext : ∀ text ∈ c.version?, ¬ Text.blank text) (hpart : ∀ n ∈ c.part?, n.defects = []) :
    (p.call c).Complete := by
  cases c with
  | version text => exact { hp with version := htext text rfl }
  | description text => exact { hp with }
  | defaults d => exact { hp with defaults := (defectsIn_some ..).trans (hpart _ rfl) }
  | target t => exact { hp with target := (defectsIn_some ..).trans (hpart _ rfl) }
  | rule r => exact { hp with content := flatMap_concat_eq_nil hp.content (hpart _ rfl) }
  | «variable» d => exact { hp with content := flatMap_concat_eq_nil hp.content (hpart _ rfl) }
  | obligation o =>
    exact { hp with obligations := defects_concat_eq_nil hp.obligations (hpart _ rfl) }

theorem complete_build {policyId algorithm : String} {calls : List Call}
    (hid : ¬ Text.blank policyId) (halgorithm : ¬ Text.blank algorithm)
    (htexts : ∀ text ∈ calls.filterMap Call.version?, ¬ Text.blank text)
    (hparts : ∀ n ∈ calls.filterMap Call.part?, n.defects = []) :
    (build policyId algorithm calls).Complete := by
  refine List.foldlRecOn calls call (complete_new hid halgorithm) fun p hp c hc => ?_
  have htext := List.forall_mem_filterMap.1 htexts c hc
  have hpart := List.forall_mem_filterMap.1 hparts c hc
  exact hp.call htext hpart

end Policy

namespace PolicySet

/-- A policy set with all that it must have. -/
structure Complete (s : PolicySet) : Prop where
  setId : ¬ Text.blank s.setId
  version : ¬ Text.blank s.version
  algorithm : ¬ Text.blank s.algorithm
  defaults : defectsIn (Defaults.defects .policySet) s.defaults = []
  target : defectsIn Target.defects s.target = []
  content : s.content.flatMap (fun m => m.toNode.defects) = []
  obligations : defectsIn defectsOfObligations s.obligations = []

theorem Complete.defects_eq_nil {s : PolicySet} (hs : s.Complete) : s.defects = [] := by
  obtain ⟨setId, version, algorithm, description, defaults, target, content, obligations⟩ := s
  simp only [defects, defectsOfMembers_eq_flatMap, List.append_eq_nil_iff, requireText_eq_nil_iff]
  exact ⟨⟨⟨⟨⟨⟨hs.setId, hs.version⟩, hs.algorithm⟩, hs.defaults⟩, hs.target⟩, hs.content⟩,
    hs.obligations⟩

theorem complete_new {setId algorithm : String} (hid : ¬ Text.blank setId)
    (halgorithm : ¬ Text.blank algorithm) : (new setId algorithm).Complete where
  setId := hid
  version := not_blank_defaultVersion
  algorithm := halgorithm
  defaults := rfl
  target := rfl
  content := rfl
  obligations := rfl

theorem Complete.call {s : PolicySet} (hs : s.Complete) {c : Call}
    (htext : ∀ text ∈ c.version?, ¬ Text.blank text) (hpart : ∀ n ∈ c.part?, n.defects = []) :
    (s.call c).Complete := by
  cases c with
  | version text => exact { hs with version := htext text rfl }
  | description text => exact { hs with }
  | target t => exact { hs with target := (defectsIn_some ..).trans (hpart _ rfl) }
  | policy p => exact { hs with content := flatMap_concat_eq_nil hs.content (hpart _ rfl) }
  | policySet inner => exact { hs with content := flatMap_concat_eq_nil hs.content (hpart _ rfl) }
  | reference kind r => exact { hs with content := flatMap_concat_eq_nil hs.content (hpart _ rfl) }

theorem complete_build {setId algorithm : String} {calls : List Call}
    (hid : ¬ Text.blank setId) (halgorithm : ¬ Text.blank algorithm)
    (htexts : ∀ text ∈ calls.filterMap Call.version?, ¬ Text.blank text)
    (hparts : ∀ n ∈ calls.filterMap Call.part?, n.defects = []) :
    (build setId algorithm calls).Complete := by
  refine List.foldlRecOn calls call (complete_new hid halgorithm) fun s hs c hc => ?_
  have htext := List.forall_mem_filterMap.1 htexts c hc
  have hpart := List.forall_mem_filterMap.1 hparts c hc
  exact hs.call htext hpart

end PolicySet

namespace Rule

/-- A rule with all that it must have. -/
structure Complete (r : Rule) : Prop where
  ruleId : ¬ Text.blank r.ruleId
  target : defectsIn Target.defects r.target = []
  condition : defectsIn Expression.defects r.condition = []

theorem Complete.defects_eq_nil {r : Rule} (hr : r.Complete) : r.defects = [] := by
  simp only [defects, List.append_eq_nil_iff, requireText_eq_nil_iff]
  exact ⟨⟨hr.ruleId, hr.target⟩, hr.condition⟩

theorem Complete.call {r : Rule} (hr : r.Complete) {c : Call}
    (hpart : ∀ n ∈ c.part?, n.defects = []) : (r.call c).Complete := by
  cases c with
  | description text => exact { hr with }
  | target t => exact { hr with target := (defectsIn_some ..).trans (hpart _ rfl) }
  | condition e =>
    have he : e.defects = [] := (Node.defects_expression e).symm.trans (hpart _ rfl)
    exact { hr with condition := (defectsIn_some ..).trans he }

theorem complete_build {ruleId : String} {effect : Effect} {calls : List Call}
    (hid : ¬ Text.blank ruleId) (hparts : ∀ n ∈ calls.filterMap Call.part?, n.defects = []) :
    (build ruleId effect calls).Complete :=
  List.foldlRecOn calls call ⟨hid, rfl, rfl⟩ fun _ hr c hc =>
    hr.call (List.forall_mem_filterMap.1 hparts c hc)

end Rule

namespace Target

/-- A target whose categories each have all that they must have. -/
def Complete (t : Target) : Prop :=
  ∀ k, defectsIn (defectsOfAnyOf k) (t.alternatives k) = []

theorem Complete.defects_eq_nil {t : Target} (ht : t.Complete) : t.defects = [] := by
  simp only [defects, List.append_eq_nil_iff]
  exact ⟨⟨⟨ht .subject, ht .resource⟩, ht .action⟩, ht .environment⟩

theorem complete_any : any.Complete := by
  intro k
  cases k <;> rfl

theorem Complete.call {t : Target} (ht : t.Complete) {c : Call} (hpart : c.part.defects = []) :
    (t.call c).Complete := by
  intro k
  rw [alternatives_call, Call.alternative?]
  split
  · next h =>
    subst h
    exact defects_concat_eq_nil (ht c.category) hpart
  · exact ht k

theorem complete_build {calls : List Call} (hparts : ∀ n ∈ calls.map Call.part, n.defects = []) :
    (build calls).Complete :=
  List.foldlRecOn calls call complete_any fun _ ht _ hc =>
    ht.call (hparts _ (List.mem_map_of_mem hc))

end Target

theorem Application.defects_build {functionId : String} {arguments : List Expression}
    (hid : ¬ Text.blank functionId)
    (hparts : ∀ n ∈ arguments.map Node.expression, n.defects = []) :
    (build functionId arguments).toExpression.defects = [] := by
  have hfollows := build_follows functionId arguments
  rw [toExpression, hfollows.functionId, hfollows.arguments, Expression.defects,
    Expression.defectsOfAll_eq_flatMap, requireText_eq_nil_iff.2 hid, List.nil_append,
    List.flatMap_eq_nil_iff]
  exact fun e he => (Node.defects_expression e).symm.trans (hparts _ (List.mem_map_of_mem he))

/-- How an element is assembled: what it is begun with, and the calls that follow. -/
inductive Assembly where
  | policy (policyId algorithm : String) (calls : List Policy.Call)
  | policySet (setId algorithm : String) (calls : List PolicySet.Call)
  | rule (ruleId : String) (effect : Effect) (calls : List Rule.Call)
  | target (calls : List Target.Call)
  | application (functionId : String) (arguments : List Expression)

namespace Assembly

/-- The element that comes of it. -/
def node : Assembly → Node
  | policy policyId algorithm calls => .policy (Policy.build policyId algorithm calls)
  | policySet setId algorithm calls => .policySet (PolicySet.build setId algorithm calls)
  | rule ruleId effect calls => .rule (Rule.build ruleId effect calls)
  | target calls => .target (Target.build calls)
  | application functionId arguments =>
    .expression (Application.build functionId arguments).toExpression

/-- The texts that are given for fields that must not be blank. -/
def requiredTexts : Assembly → List String
  | policy policyId algorithm calls =>
    policyId :: algorithm :: calls.filterMap Policy.Call.version?
  | policySet setId algorithm calls =>
    setId :: algorithm :: calls.filterMap PolicySet.Call.version?
  | rule ruleId _ _ => [ruleId]
  | target _ => []
  | application functionId _ => [functionId]

/-- The elements that are handed over. -/
def parts : Assembly → List Node
  | policy _ _ calls => calls.filterMap Policy.Call.part?
  | policySet _ _ calls => calls.filterMap PolicySet.Call.part?
  | rule _ _ calls => calls.filterMap Rule.Call.part?
  | target calls => calls.map Target.Call.part
  | application _ arguments => arguments.map .expression

/-- Whether the element is what the calls say, in their order. -/
def Followed : Assembly → Prop
  | policy policyId algorithm calls =>
    (Policy.build policyId algorithm calls).Follows policyId algorithm calls
  | policySet setId algorithm calls =>
    (PolicySet.build setId algorithm calls).Follows setId algorithm calls
  | rule ruleId effect calls => (Rule.build ruleId effect calls).Follows ruleId effect calls
  | target calls => (Target.build calls).Follows calls
  | application functionId arguments =>
    (Application.build functionId arguments).Follows functionId arguments

theorem followed (a : Assembly) : a.Followed := by
  cases a with
  | policy policyId algorithm calls => exact Policy.build_follows policyId algorithm calls
  | policySet setId algorithm calls => exact PolicySet.build_follows setId algorithm calls
  | rule ruleId effect calls => exact Rule.build_follows ruleId effect calls
  | target calls => exact Target.build_follows calls
  | application functionId arguments => exact Application.build_follows functionId arguments

theorem defects_node {a : Assembly} (htexts : ∀ text ∈ a.requiredTexts, ¬ Text.blank text)
    (hparts : ∀ n ∈ a.parts, n.defects = []) : a.node.defects = [] := by
  cases a with
  | policy policyId algorithm calls =>
    have hid := htexts policyId (.head _)
    have halgorithm := htexts algorithm (.tail _ (.head _))
    have hversions (text : String) (h : text ∈ calls.filterMap Policy.Call.version?) :
        ¬ Text.blank text := htexts text (.tail _ (.tail _ h))
    exact (Policy.complete_build hid halgorithm hversions hparts).defects_eq_nil
  | policySet setId algorithm calls =>
    have hid := htexts setId (.head _)
    have halgorithm := htexts algorithm (.tail _ (.head _))
    have hversions (text : String) (h : text ∈ calls.filterMap PolicySet.Call.version?) :
        ¬ Text.blank text := htexts text (.tail _ (.tail _ h))
    exact (PolicySet.complete_build hid halgorithm hversions hparts).defects_eq_nil
  | rule ruleId effect calls =>
    exact (Rule.complete_build (htexts ruleId (.head _)) hparts).defects_eq_nil
  | target calls => exact (Target.complete_build hparts).defects_eq_nil
  | application functionId arguments =>
    exact Application.defects_build (htexts functionId (.head _)) hparts

/-- What is assembled from texts that are not blank and from complete parts is complete, by any
number of calls in any order. Its members stand in the order of the calls, and each field for one
value holds the last one that it was set to. -/
theorem complete_in_call_order (a : Assembly)
    (htexts : ∀ text ∈ a.requiredTexts, ¬ Text.blank text)
    (hparts : ∀ n ∈ a.parts, n.defects = []) :
    a.node.defects = [] ∧ a.Followed :=
  ⟨defects_node htexts hparts, a.followed⟩

/-- A rule for those whose role has a name, under a condition on the resource. -/
def readRule : Rule :=
  Rule.build "read" .permit [
    .target (Target.build [
      ⟨.subject, [⟨"equal", .new "text" "auditor", .subjectDesignator (.new "role" "text")⟩]⟩]),
    .condition (Application.build "equal" [
      .resourceDesignator (.new "owner" "text"), .variable "owner"]).toExpression]

def logObligation : Obligation := ⟨"log", .permit, []⟩

/-- Calls on a policy, those of each sort apart from each other. -/
def mixedCalls : List Policy.Call :=
  [.rule readRule, .version "1.1", .obligation logObligation,
    .variable ⟨"owner", .literal "text" "auditor"⟩, .rule (Rule.new "rest" .deny), .version "1.2",
    .obligation ⟨"alert", .deny, []⟩]

theorem complete_in_call_order_mixedCalls :
    let a := Assembly.policy "files" "deny-overrides" mixedCalls
    let p := Policy.build "files" "deny-overrides" mixedCalls
    (∀ text ∈ a.requiredTexts, ¬ Text.blank text) ∧ (∀ n ∈ a.parts, n.defects = []) ∧
      (Node.policy p).defects = [] ∧ p.version = "1.2" ∧
      p.rules.map Rule.ruleId = ["read", "rest"] ∧
      p.variables.map VariableDefinition.variableId = ["owner"] ∧
      p.obligations = some [logObligation, ⟨"alert", .deny, []⟩] := by
  intro a p
  have htexts : ∀ text ∈ a.requiredTexts, ¬ Text.blank text := by decide
  have hparts : ∀ n ∈ a.parts, n.defects = [] := by decide
  obtain ⟨hcomplete, hfollows⟩ := complete_in_call_order a htexts hparts
  refine ⟨htexts, hparts, hcomplete, hfollows.version, ?_, ?_, hfollows.obligations⟩
  · rw [hfollows.rules]
    rfl
  · rw [hfollows.definitions]
    rfl

end Assembly

namespace Node

/-- What is put together from the bottom up: an element that is assembled, or one that is written
down and lacks nothing itself, with parts put together in the same way. -/
inductive Assembled : Node → Prop
  | built (a : Assembly) (htexts : ∀ text ∈ a.requiredTexts, ¬ Text.blank text)
      (hparts : ∀ n ∈ a.parts, Assembled n) : Assembled a.node
  | written {n : Node} (hlacks : ∀ d, ¬ n.Lacks d) (hchildren : ∀ c ∈ n.children, Assembled c) :
      Assembled n

/-- Nothing that is put together in this way is incomplete at any depth. -/
theorem Assembled.defects_eq_nil {n : Node} (hn : n.Assembled) : n.defects = [] := by
  induction hn with
  | built a htexts _ ih => exact Assembly.defects_node htexts ih
  | written hlacks _ ih =>
    refine List.eq_nil_iff_forall_not_mem.2 fun d hd => ?_
    obtain hown | ⟨c, hc, hinside⟩ := lacks_or_child_of_mem_defects hd
    · exact hlacks d hown
    · rw [ih c hc] at hinside
      cases hinside

end Node

end AccessPolicy
