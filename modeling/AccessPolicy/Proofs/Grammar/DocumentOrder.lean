import AccessPolicy.Proofs.Grammar.Completeness
import AccessPolicy.Proofs.Grammar.Written

namespace AccessPolicy

open Json

/-- A field of an element, by what is required of it and how it is written. -/
inductive Field where
  /-- A text that must not be blank. -/
  | text (key text : String)
  /-- Something of which nothing is required; it may be left out. -/
  | plain (key : String) (value : Option Value)
  /-- An element that may be absent, under its own name. -/
  | child (n : Option Node)
  /-- A list that must have an item, under the name of its items. -/
  | required (item : ElementKind) (ns : List Node)
  /-- A list that may be empty, under the name of its items. -/
  | optional (item : ElementKind) (ns : List Node)
  /-- A list whose items have their names with them. -/
  | content (ns : List Node)

namespace Field

/-- The field as it is written. -/
def members : Field → List (String × Value)
  | text key t => textField key t
  | plain key value => value.toList.map fun v => (key, v)
  | child n => n.toList.map fun c => (c.kind.localName, c.payload)
  | required item ns => [(item.localName, .array (ns.map Node.payload))]
  | optional item ns => listField item.localName (ns.map Node.payload)
  | content ns => listField "Content" (ns.map Node.encode)

/-- The elements in the field. -/
def nodes : Field → List Node
  | text _ _ => []
  | plain _ _ => []
  | child n => n.toList
  | required _ ns => ns
  | optional _ ns => ns
  | content ns => ns

/-- A flag, which is written only when it is on. -/
def flag (key : String) (on : Bool) : Field :=
  .plain key (if on then some (.bool true) else none)

/-- A text that may be left out. -/
def text? (key : String) (t : Option String) : Field :=
  .plain key (t.map .string)

end Field

def Designator.fieldList (d : Designator) : List Field :=
  [.text "AttributeId" d.attributeId, .text "DataType" d.dataType, .text? "Issuer" d.issuer,
    .flag "MustBePresent" d.mustBePresent]

namespace Node

/-- The fields of an element in the order in which they are declared. -/
def fields : Node → List Field
  | policy p =>
    [.text "PolicyId" p.policyId, .text "Version" p.version, .text "RuleCombiningAlgId" p.algorithm,
      .text? "Description" p.description, .child (p.defaults.map (defaults .policy)),
      .child (p.parameters.map parameters), .child (p.target.map target),
      .content (p.content.map PolicyMember.toNode), .child (p.obligations.map obligations)]
  | policySet s =>
    [.text "PolicySetId" s.setId, .text "Version" s.version,
      .text "PolicyCombiningAlgId" s.algorithm, .text? "Description" s.description,
      .child (s.defaults.map (defaults .policySet)), .child (s.target.map target),
      .content (s.content.map SetMember.toNode), .child (s.obligations.map obligations)]
  | description _ => []
  | xpathVersion text => [.text "Value" text]
  | defaults _ d => [.text "XPathVersion" d.xpathVersion]
  | target t =>
    [.child (t.subjects.map (anyOf .subject)), .child (t.resources.map (anyOf .resource)),
      .child (t.actions.map (anyOf .action)), .child (t.environments.map (anyOf .environment))]
  | anyOf c alternatives => [.required c.allOf (alternatives.map (allOf c))]
  | allOf c ms => [.required c.targetMatch (ms.map (targetMatch c))]
  | targetMatch _ m =>
    [.text "MatchId" m.matchId, .child (some (expression (.value m.value))),
      .child (some (expression (.source m.source)))]
  | rule r =>
    [.text "RuleId" r.ruleId, .plain "Effect" (some r.effect.encode),
      .text? "Description" r.description, .child (r.target.map target),
      .child (r.condition.map condition)]
  | condition e => [.child (some (expression e))]
  | apply functionId arguments =>
    [.text "FunctionId" functionId, .content (arguments.map expression)]
  | function functionId => [.text "FunctionId" functionId]
  | subjectDesignator d => d.fieldList ++ [.text "SubjectCategory" d.category]
  | resourceDesignator d => d.fieldList
  | actionDesignator d => d.fieldList
  | environmentDesignator d => d.fieldList
  | selector s =>
    [.text "RequestContextPath" s.path, .text "DataType" s.dataType,
      .flag "MustBePresent" s.mustBePresent]
  | value v => [.text "DataType" v.dataType, .plain "Value" (some (.string v.value))]
  | .variable variableId => [.text "VariableId" variableId]
  | variableDefinition d => [.text "VariableId" d.variableId, .child (some (expression d.expression))]
  | obligations os => [.required .obligation (os.map obligation)]
  | obligation o =>
    [.text "ObligationId" o.obligationId, .plain "FulfillOn" (some o.fulfillOn.encode),
      .optional .attributeAssignment (o.assignments.map assignment)]
  | assignment a =>
    [.text "DataType" a.dataType, .text "AttributeId" a.attributeId,
      .plain "Value" (some (.string a.value))]
  | parameters ps => [.optional .combinerParameter (ps.map parameter)]
  | parameter p =>
    [.text "ParameterName" p.name, .child (some (expression (.value p.value)))]
  | scopedParameters s ps =>
    [.text s.idField ps.idRef, .optional .combinerParameter (ps.parameters.map parameter)]
  | reference _ r =>
    [.text "Value" r.value, .text? "Version" r.version, .text? "EarliestVersion" r.earliest,
      .text? "LatestVersion" r.latest]

end Node

namespace Field

@[simp]
theorem members_text (key t : String) : (text key t).members = textField key t := rfl

@[simp]
theorem members_plain (key : String) (v : Value) : (plain key (some v)).members = [(key, v)] := rfl

@[simp]
theorem members_text? (key : String) (t : Option String) :
    (text? key t).members = textField? key t := by
  cases t <;> rfl

@[simp]
theorem members_flag (key : String) (on : Bool) : (flag key on).members = flagField key on := by
  cases on <;> rfl

@[simp]
theorem members_child_some (n : Node) :
    (child (some n)).members = [(n.kind.localName, n.payload)] := rfl

@[simp]
theorem members_child_map (f : α → Node) (a : Option α) :
    (child (a.map f)).members =
      a.toList.map fun x => ((f x).kind.localName, (f x).payload) := by
  cases a <;> rfl

@[simp]
theorem members_required_map (item : ElementKind) (f : α → Node) (as : List α) :
    (required item (as.map f)).members =
      [(item.localName, .array (as.map fun a => (f a).payload))] := by
  rw [members, List.map_map]
  rfl

@[simp]
theorem members_optional_map (item : ElementKind) (f : α → Node) (as : List α) :
    (optional item (as.map f)).members =
      listField item.localName (as.map fun a => (f a).payload) := by
  rw [members, List.map_map]
  rfl

@[simp]
theorem members_content_map (f : α → Node) (as : List α) :
    (content (as.map f)).members = listField "Content" (as.map fun a => (f a).encode) := by
  rw [members, List.map_map]
  rfl

end Field

namespace Node

/-- An object is written field by field. -/
theorem payload_eq_fields {n : Node} {members : List (String × Value)}
    (h : n.payload = .object members) : members = n.fields.flatMap Field.members := by
  cases n with
  | policySet s =>
    obtain ⟨setId, version, algorithm, text, d, t, content, os⟩ := s
    rw [payload, PolicySet.encode, PolicySet.encodeMembers_eq_map] at h
    cases h
    simp only [fields, List.flatMap_cons, List.flatMap_nil, List.append_nil, ← List.append_assoc,
      Field.members_text, Field.members_text?, Field.members_child_map, Field.members_content_map,
      SetMember.encode_toNode]
    rfl
  | description => cases h
  | xpathVersion => cases h
  | defaults holder d =>
    cases h
    exact (List.append_nil _).symm
  | apply functionId arguments =>
    rw [payload, encodeApply, Expression.encodeAll_eq_map] at h
    cases h
    simp only [fields, List.flatMap_cons, List.flatMap_nil, List.append_nil, Field.members_text,
      Field.members_content_map, encode_expression]
  | function functionId | «variable» variableId =>
    cases h
    exact (List.append_nil _).symm
  | subjectDesignator d | resourceDesignator d | actionDesignator d | environmentDesignator d =>
    cases h
    simp [fields, Designator.fieldList, Designator.fields]
  | selector s | value v =>
    cases h
    simp [fields, textField]
  | targetMatch c m =>
    cases h
    simp only [fields, List.flatMap_cons, List.flatMap_nil, List.append_nil, ← List.append_assoc,
      Field.members_text, Field.members_child_some, kind_expression, payload_expression,
      Expression.payload_source, m.source.tag_eq]
    rfl
  | condition e =>
    cases h
    simp only [fields, List.flatMap_cons, List.flatMap_nil, List.append_nil,
      Field.members_child_some, kind_expression, payload_expression, e.tag_eq]
  | variableDefinition d =>
    cases h
    simp only [fields, List.flatMap_cons, List.flatMap_nil, List.append_nil, Field.members_text,
      Field.members_child_some, kind_expression, payload_expression, d.expression.tag_eq]
  | parameter p =>
    cases h
    simp only [fields, List.flatMap_cons, List.flatMap_nil, List.append_nil, Field.members_text,
      Field.members_child_some, kind_expression, payload_expression]
    rfl
  | reference kind r =>
    cases h
    simp only [fields, List.flatMap_cons, List.flatMap_nil, List.append_nil, ← List.append_assoc,
      Field.members_text, Field.members_text?]
  | _ =>
    cases h
    simp only [fields, List.flatMap_cons, List.flatMap_nil, List.append_nil, ← List.append_assoc,
      Field.members_text, Field.members_plain, Field.members_text?, Field.members_child_map,
      Field.members_required_map, Field.members_optional_map, Field.members_content_map,
      PolicyMember.encode_toNode]
    rfl

end Node

namespace Field

/-- What is missing from the field itself, if it stands in an element of the kind. -/
def lack? (k : ElementKind) : Field → Option Defect
  | text key t => if Text.blank t then some (.blankText k key) else none
  | required item ns => if ns.isEmpty then some (.emptyList k item) else none
  | _ => none

/-- The defects that the field and the elements in it have. -/
def defects (k : ElementKind) (f : Field) : List Defect :=
  (f.lack? k).toList ++ f.nodes.flatMap Node.defects

theorem defects_text (k : ElementKind) (key t : String) :
    (text key t).defects k = requireText k key t := by
  by_cases hblank : Text.blank t <;> simp [defects, lack?, nodes, requireText, hblank]

theorem defects_plain (k : ElementKind) (key : String) (v : Option Value) :
    (plain key v).defects k = [] := rfl

theorem defects_text? (k : ElementKind) (key : String) (t : Option String) :
    (text? key t).defects k = [] := rfl

theorem defects_flag (k : ElementKind) (key : String) (on : Bool) :
    (flag key on).defects k = [] := rfl

theorem defects_child_some (k : ElementKind) (n : Node) :
    (child (some n)).defects k = n.defects :=
  List.append_nil _

theorem defects_child_map (k : ElementKind) (f : α → Node) (a : Option α) :
    (child (a.map f)).defects k = defectsIn (fun a => (f a).defects) a := by
  cases a <;> rfl

theorem defects_required_map (k item : ElementKind) (f : α → Node) (as : List α) :
    (required item (as.map f)).defects k =
      requireSome k item as ++ as.flatMap fun a => (f a).defects := by
  cases as <;> simp [defects, lack?, nodes, requireSome, List.flatMap_map]

theorem defects_optional_map (k item : ElementKind) (f : α → Node) (as : List α) :
    (optional item (as.map f)).defects k = as.flatMap fun a => (f a).defects := by
  simp [defects, lack?, nodes, List.flatMap_map]

theorem defects_content_map (k : ElementKind) (f : α → Node) (as : List α) :
    (content (as.map f)).defects k = as.flatMap fun a => (f a).defects := by
  simp [defects, lack?, nodes, List.flatMap_map]

theorem defects_ne_nil_of_lack {k : ElementKind} {f : Field} {d : Defect}
    (h : f.lack? k = some d) : f.defects k ≠ [] := by
  rw [defects, h]
  exact List.cons_ne_nil _ _

theorem defects_ne_nil_of_item {k : ElementKind} {f : Field} {c : Node} {j : Nat}
    (hitem : f.nodes[j]? = some c) (hc : c.defects ≠ []) : f.defects k ≠ [] := by
  intro hnil
  rw [defects, List.append_eq_nil_iff, List.flatMap_eq_nil_iff] at hnil
  exact hc (hnil.2 c (List.mem_of_getElem? hitem))

end Field

namespace Node

/-- The defects of an element are those of its fields as they are declared, unless it is an
assignment. -/
theorem defects_eq_fields {n : Node} (hn : ∀ a, n ≠ assignment a) :
    n.defects = n.fields.flatMap (Field.defects n.kind) := by
  cases n with
  | assignment a => exact absurd rfl (hn a)
  | policySet s =>
    obtain ⟨setId, version, algorithm, text, d, t, content, os⟩ := s
    rw [defects, PolicySet.defects, PolicySet.defectsOfMembers_eq_flatMap]
    simp only [fields, List.flatMap_cons, List.flatMap_nil, List.append_nil, ← List.append_assoc,
      Field.defects_text, Field.defects_text?, Field.defects_child_map, Field.defects_content_map]
    rfl
  | apply functionId arguments =>
    simp only [fields, List.flatMap_cons, List.flatMap_nil, List.append_nil, Field.defects_text,
      Field.defects_content_map, defects_expression]
    rw [defects, Expression.defectsOfAll_eq_flatMap]
    rfl
  | subjectDesignator d | resourceDesignator d | actionDesignator d | environmentDesignator d
  | selector s =>
    simp only [fields, Designator.fieldList, List.flatMap_cons, List.flatMap_nil, List.flatMap_append,
      List.append_nil, Field.defects_text, Field.defects_text?, Field.defects_flag]
    rfl
  | _ =>
    simp only [fields, List.flatMap_cons, List.flatMap_nil, List.append_nil, ← List.append_assoc,
      Field.defects_text, Field.defects_plain, Field.defects_text?, Field.defects_child_some,
      Field.defects_child_map, Field.defects_required_map, Field.defects_optional_map,
      Field.defects_content_map, PolicyMember.defects_toNode, defects_expression,
      Expression.defects_source]
    rfl

theorem mem_children_of_mem_nodes {n c : Node} {f : Field} (hf : f ∈ n.fields)
    (hc : c ∈ f.nodes) : c ∈ n.children := by
  have hall : ∀ f ∈ n.fields, ∀ c ∈ f.nodes, c ∈ n.children := by
    cases n with
    | subjectDesignator d | resourceDesignator d | actionDesignator d | environmentDesignator d
    | selector s =>
      simp [fields, children, Field.nodes, Field.text?, Field.flag, Designator.fieldList]
    | _ => simp +contextual [fields, children, Field.nodes, Field.text?, or_imp]
  exact hall f hf c hc

theorem eq_assignment_or_ne (n : Node) :
    (∃ a, n = assignment a) ∨ ∀ a, n ≠ assignment a := by
  cases n with
  | assignment a => exact .inl ⟨a, rfl⟩
  | _ => exact .inr fun _ h => by cases h

/-- An element has no defect if none of its fields has one. -/
theorem defects_eq_nil_iff {n : Node} :
    n.defects = [] ↔ ∀ f ∈ n.fields, f.defects n.kind = [] := by
  obtain ⟨a, rfl⟩ | hn := n.eq_assignment_or_ne
  · rw [defects, AttributeAssignment.defects, List.append_eq_nil_iff, and_comm]
    simp [fields, Field.defects_text, Field.defects_plain, kind]
  · rw [defects_eq_fields hn, List.flatMap_eq_nil_iff]

theorem defects_ne_nil_of_field {n : Node} {i : Nat} {f : Field} (hfield : n.fields[i]? = some f)
    (hf : f.defects n.kind ≠ []) : n.defects ≠ [] :=
  fun hnil => hf (defects_eq_nil_iff.1 hnil f (List.mem_of_getElem? hfield))

/-- Something is missing from an element `m` in `n`. The position of what is missing leads to `m`
from one element to the next, by the number of a field and the number of an item in it, and ends
with the number of the field that lacks something. -/
inductive Violation : Node → List Nat → Node → Defect → Prop
  | own {n : Node} {i : Nat} {f : Field} {d : Defect} (hfield : n.fields[i]? = some f)
      (hlack : f.lack? n.kind = some d) : Violation n [i] n d
  | inside {n c m : Node} {i j : Nat} {f : Field} {p : List Nat} {d : Defect}
      (hfield : n.fields[i]? = some f) (hitem : f.nodes[j]? = some c) (h : Violation c p m d) :
      Violation n (i :: j :: p) m d

/-- What is missing there comes first in document order. -/
structure First (n : Node) (p : List Nat) (m : Node) (d : Defect) : Prop where
  violation : n.Violation p m d
  least : ∀ q m' d', n.Violation q m' d' → q = p ∨ List.Lex (· < ·) p q

namespace Violation

variable {n m : Node} {p : List Nat} {d : Defect}

theorem unique (h : n.Violation p m d) {m' : Node} {d' : Defect} (h' : n.Violation p m' d') :
    m = m' ∧ d = d' := by
  induction h with
  | own hfield hlack =>
    cases h' with
    | own hfield' hlack' =>
      obtain rfl := Option.some.inj (hfield.symm.trans hfield')
      exact ⟨rfl, Option.some.inj (hlack.symm.trans hlack')⟩
  | inside hfield hitem _ ih =>
    cases h' with
    | inside hfield' hitem' h' =>
      obtain rfl := Option.some.inj (hfield.symm.trans hfield')
      obtain rfl := Option.some.inj (hitem.symm.trans hitem')
      exact ih h'

theorem occursIn (h : n.Violation p m d) : m.OccursIn n := by
  induction h with
  | own => exact .itself
  | inside hfield hitem _ ih =>
    exact .inside (mem_children_of_mem_nodes (List.mem_of_getElem? hfield)
      (List.mem_of_getElem? hitem)) ih

theorem defects_ne_nil (h : n.Violation p m d) : n.defects ≠ [] := by
  induction h with
  | own hfield hlack =>
    exact defects_ne_nil_of_field hfield (Field.defects_ne_nil_of_lack hlack)
  | inside hfield hitem _ ih =>
    exact defects_ne_nil_of_field hfield (Field.defects_ne_nil_of_item hitem ih)

/-- A blank text is named with the kind of the element that it is missing from. -/
theorem kind_eq {k : ElementKind} {field : String} (h : n.Violation p m d)
    (hd : d = .blankText k field) : m.kind = k := by
  induction h with
  | @own n i f d hfield hlack =>
    subst hd
    unfold Field.lack? at hlack
    split at hlack
    · split at hlack <;> cases hlack
      rfl
    · split at hlack <;> cases hlack
    · cases hlack
  | inside _ _ _ ih => exact ih hd

/-- The first number of a position is that of a field with a defect. -/
theorem exists_field (h : n.Violation p m d) :
    ∃ i f rest, p = i :: rest ∧ n.fields[i]? = some f ∧ f.defects n.kind ≠ [] := by
  cases h with
  | own hfield hlack => exact ⟨_, _, _, rfl, hfield, Field.defects_ne_nil_of_lack hlack⟩
  | inside hfield hitem h =>
    exact ⟨_, _, _, rfl, hfield, Field.defects_ne_nil_of_item hitem h.defects_ne_nil⟩

end Violation

namespace First

variable {n m m' : Node} {p q : List Nat} {d d' : Defect}

/-- Nothing else comes before what comes first. -/
theorem eq_of_before (h : n.First p m d) (hq : n.Violation q m' d')
    (hbefore : q = p ∨ List.Lex (· < ·) q p) : q = p := by
  obtain heq | hgt := h.least _ _ _ hq
  · exact heq
  · exact hbefore.resolve_right fun hlt => List.lt_asymm hlt hgt

theorem unique (h : n.First p m d) (h' : n.First q m' d') : p = q ∧ m = m' ∧ d = d' := by
  obtain rfl : q = p :=
    h.eq_of_before h'.violation ((h'.least _ _ _ h.violation).imp_left Eq.symm)
  exact ⟨rfl, h.violation.unique h'.violation⟩

end First

/-- What is reported of an element that lacks something. Of an assignment without an identifier it
is the identifier, although the type is declared before it. -/
def reported (m : Node) (d : Defect) : Defect :=
  match m with
  | assignment a =>
    if Text.blank a.attributeId then .blankText .attributeAssignment "AttributeId" else d
  | _ => d

end Node

theorem exists_getElem?_of_head?_flatMap {l : List α} {f : α → List β} {b : β}
    (h : (l.flatMap f).head? = some b) :
    ∃ i a, l[i]? = some a ∧ (f a).head? = some b ∧
      ∀ (j : Nat) (c : α), l[j]? = some c → f c ≠ [] → i ≤ j := by
  rw [List.head?_flatMap, List.findSome?_eq_some_iff] at h
  obtain ⟨before, a, after, rfl, hhead, hbefore⟩ := h
  refine ⟨before.length, a, by simp, hhead, fun j c hc hne => Nat.le_of_not_lt fun hlt => hne ?_⟩
  rw [List.getElem?_append_left hlt] at hc
  exact List.head?_eq_none_iff.1 (hbefore c (List.mem_of_getElem? hc))

namespace Node

/-- A field with a lack of its own comes first if no field before it has a defect. -/
theorem first_own {n : Node} {i : Nat} {f : Field} {d : Defect} (hfield : n.fields[i]? = some f)
    (hlack : f.lack? n.kind = some d)
    (hleast : ∀ (j : Nat) (g : Field), n.fields[j]? = some g → g.defects n.kind ≠ [] → i ≤ j) :
    n.First [i] n d := by
  refine ⟨.own hfield hlack, fun q m' d' h => ?_⟩
  obtain ⟨j, g, rest, rfl, hg, hne⟩ := h.exists_field
  obtain hlt | rfl := Nat.lt_or_eq_of_le (hleast j g hg hne)
  · exact .inr (.rel hlt)
  · cases rest with
    | nil => exact .inl rfl
    | cons => exact .inr (.cons .nil)

/-- What comes first in an item comes first in the element, if neither a field before nor an item
before has a defect. -/
theorem First.inside {n c m : Node} {i j : Nat} {f : Field} {p : List Nat} {d : Defect}
    (h : c.First p m d) (hfield : n.fields[i]? = some f) (hitem : f.nodes[j]? = some c)
    (hlack : f.lack? n.kind = none)
    (hfields : ∀ (k : Nat) (g : Field), n.fields[k]? = some g → g.defects n.kind ≠ [] → i ≤ k)
    (hitems : ∀ (k : Nat) (b : Node), f.nodes[k]? = some b → b.defects ≠ [] → j ≤ k) :
    n.First (i :: j :: p) m d := by
  refine ⟨.inside hfield hitem h.violation, fun q m' d' h' => ?_⟩
  obtain ⟨k, g, rest, rfl, hg, hne⟩ := h'.exists_field
  obtain hlt | rfl := Nat.lt_or_eq_of_le (hfields k g hg hne)
  · exact .inr (.rel hlt)
  cases h' with
  | own hfield' hlack' =>
    obtain rfl := Option.some.inj (hfield.symm.trans hfield')
    rw [hlack] at hlack'
    cases hlack'
  | inside hfield' hitem' h' =>
    obtain rfl := Option.some.inj (hfield.symm.trans hfield')
    obtain hlt | rfl := Nat.lt_or_eq_of_le (hitems _ _ hitem' h'.defects_ne_nil)
    · exact .inr (.cons (.rel hlt))
    obtain rfl := Option.some.inj (hitem.symm.trans hitem')
    obtain rfl | hlt := h.least _ _ _ h'
    · exact .inl rfl
    · exact .inr (.cons (.cons hlt))

/-- Of an assignment the fields are checked in another order than they are declared in. -/
theorem exists_first_assignment {a : AttributeAssignment} {e : Defect}
    (h : (assignment a).defects.head? = some e) :
    ∃ p m d, (assignment a).First p m d ∧ m.reported d = e := by
  simp only [defects, AttributeAssignment.defects, requireText] at h
  by_cases htype : Text.blank a.dataType
  · refine ⟨[0], _, _, first_own (f := .text "DataType" a.dataType) rfl (if_pos htype)
      fun j _ _ _ => Nat.zero_le j, ?_⟩
    by_cases hid : Text.blank a.attributeId
    · simpa [reported, htype, hid] using h
    · simpa [reported, htype, hid, kind] using h
  · have hid : Text.blank a.attributeId :=
      Decidable.byContradiction fun hid => by simp [htype, hid] at h
    refine ⟨[1], _, _, first_own (f := .text "AttributeId" a.attributeId) rfl (if_pos hid)
      fun j g hg hne => ?_, ?_⟩
    · refine Nat.pos_of_ne_zero fun hj => ?_
      subst hj
      obtain rfl := Option.some.inj hg
      exact hne (by rw [Field.defects_text, requireText, if_neg htype])
    · simpa [reported, htype, hid] using h

/-- The defect that is found first is what is reported of the first violation in document order. -/
theorem exists_first {n : Node} {e : Defect} (h : n.defects.head? = some e) :
    ∃ p m d, n.First p m d ∧ m.reported d = e := by
  induction n using induction_children with
  | h n ih =>
    obtain ⟨a, rfl⟩ | hn := n.eq_assignment_or_ne
    · exact exists_first_assignment h
    rw [defects_eq_fields hn] at h
    obtain ⟨i, f, hfield, hhead, hfields⟩ := exists_getElem?_of_head?_flatMap h
    -- What the field itself lacks comes before what is missing inside it.
    cases hlack : f.lack? n.kind with
    | some d =>
      refine ⟨[i], n, d, first_own hfield hlack hfields, ?_⟩
      rw [Field.defects, hlack] at hhead
      have hsame : n.reported d = d := by
        cases n with
        | assignment a => exact absurd rfl (hn a)
        | _ => rfl
      rw [hsame]
      exact Option.some.inj hhead
    | none =>
      rw [Field.defects, hlack, Option.toList_none, List.nil_append] at hhead
      obtain ⟨j, c, hitem, hchild, hitems⟩ := exists_getElem?_of_head?_flatMap hhead
      have hmem := mem_children_of_mem_nodes (List.mem_of_getElem? hfield) (List.mem_of_getElem? hitem)
      obtain ⟨p, m, d, hfirst, hreported⟩ := ih c hmem hchild
      exact ⟨i :: j :: p, m, d, hfirst.inside hfield hitem hlack hfields hitems, hreported⟩

/-- The type of an assignment is declared before anything else of it. -/
theorem Violation.exists_dataType {n m : Node} {p : List Nat} {d : Defect}
    (h : n.Violation p m d) {a : AttributeAssignment} (hm : m = assignment a)
    (htype : Text.blank a.dataType) :
    ∃ q, n.Violation q (assignment a) (.blankText .attributeAssignment "DataType") ∧
      (q = p ∨ List.Lex (· < ·) q p) := by
  induction h with
  | @own n i =>
    subst hm
    refine ⟨[0], .own (f := .text "DataType" a.dataType) rfl (if_pos htype), ?_⟩
    cases i with
    | zero => exact .inl rfl
    | succ i => exact .inr (.rel i.succ_pos)
  | inside hfield hitem _ ih =>
    obtain ⟨q, hviolation, hq⟩ := ih hm
    refine ⟨_, .inside hfield hitem hviolation, ?_⟩
    obtain rfl | hlt := hq
    · exact .inl rfl
    · exact .inr (.cons (.cons hlt))

/-- If an assignment without a type comes first, it is for its type. -/
theorem First.eq_dataType {n : Node} {p : List Nat} {a : AttributeAssignment} {d : Defect}
    (h : n.First p (assignment a) d) (htype : Text.blank a.dataType) :
    d = .blankText .attributeAssignment "DataType" := by
  obtain ⟨q, hviolation, hq⟩ := h.violation.exists_dataType rfl htype
  obtain rfl := h.eq_of_before hviolation hq
  exact (h.violation.unique hviolation).2

end Node

end AccessPolicy
