import AccessPolicy.Proofs.Grammar.Rule

namespace AccessPolicy

open Json

theorem Defaults.denotes_child (child : Option Defaults) : ∀ d ∈ child,
    d.encode.Denotes Defaults.decode d ∧ d.encode.sorted ≠ .null :=
  fun d _ => ⟨d.denotes, sorted_object_ne_null _⟩

theorem parameters_denotes_child (child : Option (List CombinerParameter)) : ∀ ps ∈ child,
    (encodeParameters ps).Denotes decodeParameters ps ∧ (encodeParameters ps).sorted ≠ .null :=
  fun ps _ => ⟨parameters_denotes ps, sorted_object_ne_null _⟩

theorem obligations_denotes_child (child : Option (List Obligation)) : ∀ os ∈ child,
    (encodeObligations os).Denotes decodeObligations os ∧ (encodeObligations os).sorted ≠ .null :=
  fun os _ => ⟨obligations_denotes os, sorted_object_ne_null _⟩

theorem PolicyMember.denotes (m : PolicyMember) : m.encode.Denotes PolicyMember.decode m := by
  cases m with
  | parameters ps =>
    exact member_denotes .combinerParameters rfl (by decide)
      ((parameters_denotes ps).map parameters)
  | ruleParameters ps =>
    exact member_denotes .ruleCombinerParameters rfl (by decide)
      ((scoped_denotes .rule ps).map ruleParameters)
  | «variable» d =>
    exact member_denotes .variableDefinition rfl (by decide) (d.denotes.map PolicyMember.variable)
  | rule r => exact member_denotes .rule rfl (by decide) (r.denotes.map rule)

/-- A policy is read again from what is written for it. -/
theorem Policy.denotes (p : Policy) : p.encode.Denotes Policy.decode p := by
  have hdefaults := Defaults.denotes_child p.defaults
  have hparameters := parameters_denotes_child p.parameters
  have htarget := Target.denotes_child p.target
  have hcontent : ∀ m ∈ p.content, m.encode.Denotes PolicyMember.decode m := fun m _ => m.denotes
  have hobligations := obligations_denotes_child p.obligations
  constructor
  · rw [encode, Value.legible_object]
    simp only [legibleFields_append, legibleFields_textField, legibleFields_textField?,
      legibleFields_childField?, legibleFields_listField, List.forall_mem_map, true_and]
    exact ⟨⟨⟨⟨fun d hd => (hdefaults d hd).1.legible, fun ps hps => (hparameters ps hps).1.legible⟩,
      fun t ht => (htarget t ht).1.legible⟩, fun m hm => (hcontent m hm).legible⟩,
      fun os hos => (hobligations os hos).1.legible⟩
  · rw [encode, decode, Layout.required_of_last "PolicyId" ?_ (denotes_string p.policyId),
      Layout.defaulted_of_last "Version" ?_ (denotes_string p.version),
      Layout.required_of_last "RuleCombiningAlgId" ?_ (denotes_string p.algorithm),
      Layout.optional_of_last "Description" ?_ (denotes_string_child p.description),
      Layout.optional_of_last "PolicyDefaults" ?_ hdefaults,
      Layout.optional_of_last "CombinerParameters" ?_ hparameters,
      Layout.optional_of_last "Target" ?_ htarget,
      Layout.list_of_last "Content" ?_ hcontent,
      Layout.optional_of_last "Obligations" ?_ hobligations]
    · rfl
    all_goals simp

theorem IdReference.denotes (r : IdReference) : r.encode.Denotes IdReference.decode r := by
  constructor
  · simp [encode, Value.legible_object]
  · rw [encode, decode, Layout.required_of_last "Value" ?_ (denotes_string r.value),
      Layout.optional_of_last "Version" ?_ (denotes_string_child r.version),
      Layout.optional_of_last "EarliestVersion" ?_ (denotes_string_child r.earliest),
      Layout.optional_of_last "LatestVersion" ?_ (denotes_string_child r.latest)]
    · rfl
    all_goals simp

/-- A member of a set is read again if it is no set, or a set that is read again. -/
theorem SetMember.denotes_of_set {m : SetMember PolicySet}
    (hset : ∀ s, m = .policySet s → s.encode.Denotes PolicySet.decode s) :
    m.encode.Denotes SetMember.decode m := by
  cases m with
  | policySet s => exact member_denotes .policySet rfl (by decide) ((hset s rfl).map policySet)
  | policy p => exact member_denotes .policy rfl (by decide) (p.denotes.map policy)
  | reference kind r =>
    cases kind with
    | policy =>
      exact member_denotes .policyIdReference rfl (by decide) (r.denotes.map (reference .policy))
    | policySet =>
      exact member_denotes .policySetIdReference rfl (by decide)
        (r.denotes.map (reference .policySet))
  | parameters ps =>
    exact member_denotes .combinerParameters rfl (by decide)
      ((parameters_denotes ps).map parameters)
  | policyParameters ps =>
    exact member_denotes .policyCombinerParameters rfl (by decide)
      ((scoped_denotes .policy ps).map policyParameters)
  | setParameters ps =>
    exact member_denotes .policySetCombinerParameters rfl (by decide)
      ((scoped_denotes .policySet ps).map setParameters)

namespace PolicySet

/-- A set is read again if its members are. -/
theorem denotes_of_members {s : PolicySet}
    (hcontent : ∀ m ∈ s.content, m.encode.Denotes SetMember.decode m) :
    s.encode.Denotes decode s := by
  obtain ⟨setId, version, algorithm, description, defaults, target, content, obligations⟩ := s
  have hdefaults := Defaults.denotes_child defaults
  have htarget := Target.denotes_child target
  have hobligations := obligations_denotes_child obligations
  constructor
  · rw [encode, fieldsAround, encodeMembers_eq_map, Value.legible_object]
    simp only [legibleFields_append, legibleFields_textField, legibleFields_textField?,
      legibleFields_childField?, legibleFields_listField, List.forall_mem_map, true_and]
    exact ⟨⟨⟨fun d hd => (hdefaults d hd).1.legible, fun t ht => (htarget t ht).1.legible⟩,
      fun m hm => (hcontent m hm).legible⟩, fun os hos => (hobligations os hos).1.legible⟩
  · rw [encode, fieldsAround, encodeMembers_eq_map, decode_eq, fieldsOf,
      Layout.required_of_last "PolicySetId" ?_ (denotes_string setId),
      Layout.defaulted_of_last "Version" ?_ (denotes_string version),
      Layout.required_of_last "PolicyCombiningAlgId" ?_ (denotes_string algorithm),
      Layout.optional_of_last "Description" ?_ (denotes_string_child description),
      Layout.optional_of_last "PolicySetDefaults" ?_ hdefaults,
      Layout.optional_of_last "Target" ?_ htarget,
      Layout.list_of_last "Content" ?_ hcontent,
      Layout.optional_of_last "Obligations" ?_ hobligations]
    · rfl
    all_goals simp

mutual

theorem denotes : (s : PolicySet) → s.encode.Denotes decode s
  | ⟨_, _, _, _, _, _, content, _⟩ => denotes_of_members (members_denote content)

theorem members_denote : (ms : List (SetMember PolicySet)) →
    ∀ m ∈ ms, m.encode.Denotes SetMember.decode m
  | [] => nofun
  | .policySet s :: rest => by
    have hset := denotes s
    refine List.forall_mem_cons.2 ⟨SetMember.denotes_of_set ?_, members_denote rest⟩
    rintro _ ⟨⟩
    exact hset
  | .policy _ :: rest => List.forall_mem_cons.2 ⟨SetMember.denotes_of_set nofun, members_denote rest⟩
  | .reference _ _ :: rest =>
    List.forall_mem_cons.2 ⟨SetMember.denotes_of_set nofun, members_denote rest⟩
  | .parameters _ :: rest =>
    List.forall_mem_cons.2 ⟨SetMember.denotes_of_set nofun, members_denote rest⟩
  | .policyParameters _ :: rest =>
    List.forall_mem_cons.2 ⟨SetMember.denotes_of_set nofun, members_denote rest⟩
  | .setParameters _ :: rest =>
    List.forall_mem_cons.2 ⟨SetMember.denotes_of_set nofun, members_denote rest⟩

end

end PolicySet

end AccessPolicy
