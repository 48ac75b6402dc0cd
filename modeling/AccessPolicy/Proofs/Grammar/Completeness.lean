import AccessPolicy.Document.Marshal
import AccessPolicy.Grammar.Build
import AccessPolicy.Proofs.Grammar.Occurrence

namespace AccessPolicy

namespace Node

/-- The texts that must not be blank, each with the name of its field. -/
def requiredTexts : Node → List (String × String)
  | policy p =>
    [("PolicyId", p.policyId), ("Version", p.version), ("RuleCombiningAlgId", p.algorithm)]
  | policySet s =>
    [("PolicySetId", s.setId), ("Version", s.version), ("PolicyCombiningAlgId", s.algorithm)]
  | description _ => []
  | xpathVersion text => [("Value", text)]
  | defaults _ d => [("XPathVersion", d.xpathVersion)]
  | target _ => []
  | anyOf _ _ => []
  | allOf _ _ => []
  | targetMatch _ m => [("MatchId", m.matchId)]
  | rule r => [("RuleId", r.ruleId)]
  | condition _ => []
  | apply functionId _ => [("FunctionId", functionId)]
  | function functionId => [("FunctionId", functionId)]
  | subjectDesignator d =>
    [("AttributeId", d.attributeId), ("DataType", d.dataType), ("SubjectCategory", d.category)]
  | resourceDesignator d => [("AttributeId", d.attributeId), ("DataType", d.dataType)]
  | actionDesignator d => [("AttributeId", d.attributeId), ("DataType", d.dataType)]
  | environmentDesignator d => [("AttributeId", d.attributeId), ("DataType", d.dataType)]
  | selector s => [("RequestContextPath", s.path), ("DataType", s.dataType)]
  | value v => [("DataType", v.dataType)]
  | .variable variableId => [("VariableId", variableId)]
  | variableDefinition d => [("VariableId", d.variableId)]
  | obligations _ => []
  | obligation o => [("ObligationId", o.obligationId)]
  | assignment a => [("AttributeId", a.attributeId), ("DataType", a.dataType)]
  | parameters _ => []
  | parameter p => [("ParameterName", p.name)]
  | scopedParameters s ps => [(s.idField, ps.idRef)]
  | reference _ r => [("Value", r.value)]

/-- The kind of the items that there must be one of, and how many of them there are. -/
def requiredItems : Node → Option (ElementKind × Nat)
  | anyOf c alternatives => some (c.allOf, alternatives.length)
  | allOf c ms => some (c.targetMatch, ms.length)
  | obligations os => some (.obligation, os.length)
  | _ => none

/-- What is missing from an element itself, not from one inside it. -/
inductive Lacks (n : Node) : Defect → Prop
  | text {field text : String} (hfield : (field, text) ∈ n.requiredTexts)
      (hblank : Text.blank text) : Lacks n (.blankText n.kind field)
  | items {child : ElementKind} (hitems : n.requiredItems = some (child, 0)) :
      Lacks n (.emptyList n.kind child)

/-- What is looked for in an element before the elements inside it. -/
def ownDefects (n : Node) : List Defect :=
  n.requiredTexts.flatMap (fun m => requireText n.kind m.1 m.2) ++
    (n.requiredItems.toList.filter fun m => m.2 = 0).map fun m => .emptyList n.kind m.1

end Node

theorem mem_requireText {k : ElementKind} {field text : String} {d : Defect} :
    d ∈ requireText k field text ↔ Text.blank text ∧ d = .blankText k field := by
  unfold requireText
  split
  · next hblank => simp [hblank]
  · next hblank => simp [hblank]

theorem requireSome_eq (k child : ElementKind) (items : List α) :
    requireSome k child items =
      ([(child, items.length)].filter fun m => m.2 = 0).map fun m => Defect.emptyList k m.1 := by
  cases items <;> simp [requireSome]

theorem Expression.defectsOfAll_eq_flatMap (es : List Expression) :
    defectsOfAll es = es.flatMap defects := by
  induction es with
  | nil => rfl
  | cons e es ih => rw [defectsOfAll, ih, List.flatMap_cons]

theorem PolicyMember.defects_toNode (m : PolicyMember) : m.toNode.defects = m.defects := by
  cases m <;> rfl

theorem PolicySet.defectsOfMembers_eq_flatMap (ms : List (SetMember PolicySet)) :
    defectsOfMembers ms = ms.flatMap fun m => m.toNode.defects := by
  induction ms with
  | nil => rw [defectsOfMembers, List.flatMap_nil]
  | cons m ms ih => cases m <;> rw [defectsOfMembers, ih, List.flatMap_cons] <;> rfl

namespace Node

theorem mem_ownDefects {n : Node} {d : Defect} : d ∈ n.ownDefects ↔ n.Lacks d := by
  simp only [ownDefects, List.mem_append, List.mem_flatMap, mem_requireText, List.mem_map,
    List.mem_filter, Option.mem_toList, decide_eq_true_eq]
  constructor
  · rintro (⟨⟨field, text⟩, hfield, hblank, rfl⟩ | ⟨⟨child, count⟩, ⟨hitems, hcount⟩, rfl⟩)
    · exact .text hfield hblank
    · obtain rfl : count = 0 := hcount
      exact .items hitems
  · intro h
    cases h with
    | text hfield hblank => exact .inl ⟨_, hfield, hblank, rfl⟩
    | items hitems => exact .inr ⟨_, ⟨hitems, rfl⟩, rfl⟩

theorem flatMap_defects_child (f : α → Node) (child : Option α) :
    (child.toList.map f).flatMap defects = defectsIn (fun a => (f a).defects) child := by
  rw [List.flatMap_map]
  rfl

theorem flatMap_defects_description (text : Option String) :
    (text.toList.map description).flatMap defects = [] := by
  cases text <;> rfl

theorem defects_policy (p : Policy) :
    (policy p).defects = (policy p).ownDefects ++ (policy p).children.flatMap defects := by
  have hcontent : (p.content.map PolicyMember.toNode).flatMap defects =
      p.content.flatMap PolicyMember.defects := by
    simp only [List.flatMap_map, PolicyMember.defects_toNode]
  simp only [children, List.flatMap_append, flatMap_defects_description, hcontent]
  simp only [flatMap_defects_child]
  simp [ownDefects, requiredTexts, requiredItems, kind, defects, Policy.defects]

theorem defects_policySet (s : PolicySet) :
    (policySet s).defects = (policySet s).ownDefects ++ (policySet s).children.flatMap defects := by
  obtain ⟨setId, version, algorithm, text, d, t, content, os⟩ := s
  have hcontent : (content.map SetMember.toNode).flatMap defects =
      PolicySet.defectsOfMembers content := by
    rw [List.flatMap_map, PolicySet.defectsOfMembers_eq_flatMap]
  simp only [children, List.flatMap_append, flatMap_defects_description, hcontent]
  simp only [flatMap_defects_child]
  simp [ownDefects, requiredTexts, requiredItems, kind, defects, PolicySet.defects]

theorem defects_apply (functionId : String) (arguments : List Expression) :
    (apply functionId arguments).defects =
      (apply functionId arguments).ownDefects ++
        (apply functionId arguments).children.flatMap defects := by
  simp only [children, List.flatMap_map, defects_expression]
  simp [ownDefects, requiredTexts, requiredItems, kind, defects,
    Expression.defectsOfAll_eq_flatMap]

/-- The defects of an element are its own and then those of the elements inside it. Defaults are an
exception: the version inside them is reported once, as missing from them. -/
theorem defects_eq {n : Node} (hn : ∀ holder d, n ≠ defaults holder d) :
    n.defects = n.ownDefects ++ n.children.flatMap defects := by
  cases n with
  | policy p => exact defects_policy p
  | policySet s => exact defects_policySet s
  | apply functionId arguments => exact defects_apply functionId arguments
  | defaults holder d => exact absurd rfl (hn holder d)
  | description text => rfl
  | condition e =>
    simp only [children, List.flatMap_singleton, defects_expression]
    simp [ownDefects, requiredTexts, requiredItems, defects]
  | target t =>
    simp only [children, List.flatMap_append, flatMap_defects_child]
    rfl
  | rule r =>
    simp only [children, List.flatMap_append, flatMap_defects_description]
    simp only [flatMap_defects_child]
    simp [ownDefects, requiredTexts, requiredItems, kind, defects, Rule.defects]
  | xpathVersion text =>
    simp [ownDefects, requiredTexts, requiredItems, kind, children, defects]
  | anyOf c alternatives =>
    simp [ownDefects, requiredTexts, requiredItems, kind, children, defects, defectsOfAnyOf,
      requireSome_eq, List.flatMap_map]
  | allOf c ms =>
    simp [ownDefects, requiredTexts, requiredItems, kind, children, defects, defectsOfAllOf,
      requireSome_eq, List.flatMap_map]
  | targetMatch c m =>
    simp only [children, List.flatMap_cons, List.flatMap_nil, defects_expression]
    simp [ownDefects, requiredTexts, requiredItems, kind, defects, TargetMatch.defects,
      Expression.defects]
  | function functionId =>
    simp [ownDefects, requiredTexts, requiredItems, kind, children, defects]
  | subjectDesignator d =>
    simp [ownDefects, requiredTexts, requiredItems, kind, children, defects,
      SubjectDesignator.defects, Designator.defects]
  | resourceDesignator d | actionDesignator d | environmentDesignator d =>
    simp [ownDefects, requiredTexts, requiredItems, kind, children, defects, Designator.defects]
  | selector s =>
    simp [ownDefects, requiredTexts, requiredItems, kind, children, defects, Selector.defects]
  | value v =>
    simp [ownDefects, requiredTexts, requiredItems, kind, children, defects,
      AttributeValue.defects]
  | «variable» variableId =>
    simp [ownDefects, requiredTexts, requiredItems, kind, children, defects]
  | variableDefinition d =>
    simp only [children, List.flatMap_singleton, defects_expression]
    simp [ownDefects, requiredTexts, requiredItems, kind, defects, VariableDefinition.defects]
  | obligations os =>
    simp [ownDefects, requiredTexts, requiredItems, kind, children, defects, defectsOfObligations,
      requireSome_eq, List.flatMap_map]
  | obligation o =>
    simp [ownDefects, requiredTexts, requiredItems, kind, children, defects, Obligation.defects,
      List.flatMap_map]
  | assignment a =>
    simp [ownDefects, requiredTexts, requiredItems, kind, children, defects,
      AttributeAssignment.defects]
  | parameters ps =>
    simp [ownDefects, requiredTexts, requiredItems, children, defects, defectsOfParameters,
      List.flatMap_map]
  | parameter p =>
    simp only [children, List.flatMap_singleton, defects_expression]
    simp [ownDefects, requiredTexts, requiredItems, kind, defects, CombinerParameter.defects,
      Expression.defects]
  | scopedParameters s ps =>
    simp [ownDefects, requiredTexts, requiredItems, kind, children, defects, defectsOfScoped,
      defectsOfParameters, List.flatMap_map]
  | reference kind r =>
    simp [ownDefects, requiredTexts, requiredItems, Node.kind, children, defects,
      IdReference.defects]

theorem eq_defaults_or_ne (n : Node) :
    (∃ holder d, n = defaults holder d) ∨ ∀ holder d, n ≠ defaults holder d := by
  cases n with
  | defaults holder d => exact .inl ⟨holder, d, rfl⟩
  | _ => exact .inr fun _ _ h => by cases h

theorem defects_defaults (holder : ArtifactKind) (d : Defaults) :
    (defaults holder d).defects = (defaults holder d).ownDefects := by
  simp [ownDefects, requiredTexts, requiredItems, kind, defects, Defaults.defects]

/-- A defect is a lack of the element itself or a defect of an element directly inside it. -/
theorem lacks_or_child_of_mem_defects {n : Node} {d : Defect} (h : d ∈ n.defects) :
    n.Lacks d ∨ ∃ c ∈ n.children, d ∈ c.defects := by
  obtain ⟨holder, d', rfl⟩ | hn := eq_defaults_or_ne n
  · rw [defects_defaults, mem_ownDefects] at h
    exact .inl h
  · rw [defects_eq hn, List.mem_append, mem_ownDefects, List.mem_flatMap] at h
    exact h

theorem mem_defects_of_lacks {n : Node} {d : Defect} (h : n.Lacks d) : d ∈ n.defects := by
  have hown := mem_ownDefects.2 h
  obtain ⟨holder, d', rfl⟩ | hn := eq_defaults_or_ne n
  · rw [defects_defaults]
    exact hown
  · rw [defects_eq hn]
    exact List.mem_append_left _ hown

/-- An element is complete only if those directly inside it are. -/
theorem defects_child_eq_nil {n c : Node} (hc : c ∈ n.children) (h : n.defects = []) :
    c.defects = [] := by
  obtain ⟨holder, d, rfl⟩ | hn := eq_defaults_or_ne n
  · obtain rfl : c = xpathVersion d.xpathVersion := by simpa [children] using hc
    simp only [defects, Defaults.defects, requireText] at h ⊢
    split at h
    · cases h
    · next hblank => rw [if_neg hblank]
  · rw [defects_eq hn, List.append_eq_nil_iff, List.flatMap_eq_nil_iff] at h
    exact h.2 c hc

theorem exists_lacks_of_mem_defects (n : Node) {d : Defect} (h : d ∈ n.defects) :
    ∃ m : Node, m.OccursIn n ∧ m.Lacks d := by
  induction n using induction_children with
  | h n ih =>
    obtain hlacks | ⟨c, hc, hmem⟩ := lacks_or_child_of_mem_defects h
    · exact ⟨n, .itself, hlacks⟩
    · obtain ⟨m, hoccurs, hlacks⟩ := ih c hc hmem
      exact ⟨m, .inside hc hoccurs, hlacks⟩

theorem OccursIn.defects_eq_nil {m n : Node} (hm : m.OccursIn n) (h : n.defects = []) :
    m.defects = [] := by
  induction hm with
  | itself => exact h
  | inside hchild _ ih => exact ih (defects_child_eq_nil hchild h)

theorem marshal_eq_error_iff {n : Node} {d : Defect} :
    n.marshal = .error (.incomplete d) ↔ n.defects.head? = some d := by
  rw [marshal]
  cases n.defects <;> simp [checkDefects, bind, Except.bind, pure, Except.pure]

theorem exists_marshal_eq_ok_iff {n : Node} : (∃ bytes, n.marshal = .ok bytes) ↔ n.defects = [] := by
  rw [marshal]
  cases n.defects <;> simp [checkDefects, bind, Except.bind, pure, Except.pure]

/-- The check of required fields refuses exactly the elements that are not complete. Marshalling
fails with such an error if and only if the element or one anywhere inside it lacks something; what
the error names is missing there; and an element that is accepted has only parts that are accepted
by themselves. -/
theorem marshal_refuses_iff_lacks (n : Node) :
    ((∃ d, n.marshal = .error (.incomplete d)) ↔ ∃ (m : Node) (d : Defect), m.OccursIn n ∧ m.Lacks d) ∧
    (∀ d, n.marshal = .error (.incomplete d) → ∃ m : Node, m.OccursIn n ∧ m.Lacks d) ∧
    ((∃ bytes, n.marshal = .ok bytes) ↔ ∀ m : Node, m.OccursIn n → ∃ bytes, m.marshal = .ok bytes) := by
  have hnames (d : Defect) (h : n.marshal = .error (.incomplete d)) :
      ∃ m : Node, m.OccursIn n ∧ m.Lacks d :=
    exists_lacks_of_mem_defects n (List.mem_of_mem_head? (marshal_eq_error_iff.1 h))
  refine ⟨⟨fun ⟨d, h⟩ => ?_, fun ⟨m, d, hoccurs, hlacks⟩ => ?_⟩, hnames, ⟨fun h m hoccurs => ?_, ?_⟩⟩
  · obtain ⟨m, hm⟩ := hnames d h
    exact ⟨m, d, hm⟩
  · cases hdefects : n.defects with
    | nil =>
      have hmem := mem_defects_of_lacks hlacks
      rw [hoccurs.defects_eq_nil hdefects] at hmem
      cases hmem
    | cons e rest => exact ⟨e, marshal_eq_error_iff.2 (by rw [hdefects]; rfl)⟩
  · exact exists_marshal_eq_ok_iff.2 (hoccurs.defects_eq_nil (exists_marshal_eq_ok_iff.1 h))
  · intro hparts
    exact hparts n .itself

/-- A set with a policy with a rule whose condition applies a function that is not named. -/
def unnamedCall : PolicySet :=
  (PolicySet.new "outer" "deny-overrides").withPolicy
    ((Policy.new "inner" "deny-overrides").withRule
      ((Rule.new "r" .permit).withCondition (.apply " " [])))

/-- However deep an element stands, a lack of it is found. -/
theorem marshal_refuses_iff_lacks_unnamedCall :
    ∃ d, (policySet unnamedCall).marshal = .error (.incomplete d) := by
  have hoccurs : (expression (.apply " " [])).OccursIn (policySet unnamedCall) :=
    .inside (.head _) (.inside (.head _) (.inside (.head _) (.inside (.head _) .itself)))
  have hlacks : (expression (.apply " " [])).Lacks (.blankText .apply "FunctionId") :=
    .text (.head _) (by decide)
  exact (marshal_refuses_iff_lacks _).1.2 ⟨_, _, hoccurs, hlacks⟩

end Node

end AccessPolicy
