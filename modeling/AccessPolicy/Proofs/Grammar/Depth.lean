import AccessPolicy.Proofs.Grammar.Occurrence
import AccessPolicy.Proofs.Grammar.Rule
import AccessPolicy.Proofs.Json.Depth

namespace AccessPolicy

open Json

variable {n : Nat}

theorem depth_variant (tag : String) (payload : Value) :
    (variant tag payload).depth = payload.depth + 1 := by
  simp [variant, Value.depth, Value.depthMembers]

/-- A member is written no deeper if payloads are, whatever kind they are taken for. -/
theorem noDeeper_member {kinds : List ElementKind} {decodePayload : ElementKind → Decoder α}
    {payload : α → Value} (tag : α → String) (h : ∀ k, NoDeeper n payload (decodePayload k)) :
    NoDeeper (n + 1) (fun a => variant (tag a) (payload a)) (decodeMember kinds decodePayload) := by
  intro v a hv hdecode
  obtain ⟨⟨⟨k, c⟩, hbelow⟩, -, hpayload⟩ := bind_eq_ok_iff.1 hdecode
  have hchild : c.depth < v.depth := hbelow
  have hle : (payload a).depth ≤ c.depth := h k c a (by omega) hpayload
  calc (variant (tag a) (payload a)).depth
      = (payload a).depth + 1 := depth_variant _ _
    _ ≤ v.depth := by omega

theorem AttributeValue.noDeeper (place : Place) :
    NoDeeper n AttributeValue.encode (AttributeValue.decode place) := by
  intro v a _ h
  obtain ⟨hpos, -⟩ := Layout.finish_eq_ok h
  rw [encode, Value.depth_object_le_iff, fieldsBelow_append]
  exact ⟨hpos, fieldsBelow_textField hpos _ _, fieldsBelow_textField hpos _ _⟩

theorem Designator.fieldsBelow (hpos : 0 < n) (d : Designator) : FieldsBelow n d.fields := by
  simp only [fields, fieldsBelow_append, fieldsBelow_textField hpos, fieldsBelow_textField? hpos,
    fieldsBelow_flagField hpos, and_self]

theorem Designator.noDeeper (place : Place) :
    NoDeeper n Designator.encode (Designator.decode place) := by
  intro v d _ h
  obtain ⟨hpos, -⟩ := Layout.finish_eq_ok h
  rw [encode, Value.depth_object_le_iff]
  exact ⟨hpos, d.fieldsBelow hpos⟩

theorem SubjectDesignator.noDeeper (place : Place) :
    NoDeeper n SubjectDesignator.encode (SubjectDesignator.decode place) := by
  intro v d _ h
  obtain ⟨hpos, -⟩ := Layout.finish_eq_ok h
  rw [encode, Value.depth_object_le_iff, fieldsBelow_append]
  exact ⟨hpos, d.toDesignator.fieldsBelow hpos, fieldsBelow_textField hpos _ _⟩

theorem Selector.noDeeper (place : Place) :
    NoDeeper n Selector.encode (Selector.decode place) := by
  intro v s _ h
  obtain ⟨hpos, -⟩ := Layout.finish_eq_ok h
  rw [encode, Value.depth_object_le_iff]
  simp only [fieldsBelow_append, fieldsBelow_textField hpos, fieldsBelow_flagField hpos, and_self,
    and_true]
  exact hpos

theorem AttributeSource.noDeeper (place : Place) (k : ElementKind) :
    NoDeeper n AttributeSource.payload (AttributeSource.decodePayload place k) := by
  intro v s hv h
  unfold decodePayload at h
  split at h
  · exact (SubjectDesignator.noDeeper place).of_map hv h fun _ => rfl
  · exact (Designator.noDeeper place).of_map hv h fun _ => rfl
  · exact (Designator.noDeeper place).of_map hv h fun _ => rfl
  · exact (Designator.noDeeper place).of_map hv h fun _ => rfl
  · exact (Selector.noDeeper place).of_map hv h fun _ => rfl
  · cases h

namespace Expression

theorem noDeeper_apply {place : Place} {v : Value} {e : Expression}
    (harguments : NoDeeper v.depth encode (decode place))
    (h : decodePayload place .apply v = .ok e) : e.payload.depth ≤ v.depth := by
  rw [decodePayload_apply] at h
  obtain ⟨hpos, hfields⟩ := Layout.finish_eq_ok h
  simp only [result_seq_eq_ok_iff, result_map_eq_ok_iff] at hfields
  obtain ⟨_, ⟨functionId, -, rfl⟩, arguments, hlist, rfl⟩ := hfields
  have hitems := Layout.depth_lt_of_list harguments hlist
  rw [payload, encodeAll_eq_map, encodeApply, Value.depth_object_le_iff, fieldsBelow_append,
    fieldsBelow_listField]
  exact ⟨hpos, fieldsBelow_textField hpos _ _, hitems⟩

theorem noDeeper_payload (place : Place) (k : ElementKind) :
    NoDeeper n payload (decodePayload place k) := by
  induction n generalizing k with
  | zero => exact fun v _ hv => absurd hv (Nat.not_lt_zero _)
  | succ n ih =>
    intro v e hv h
    have hle : v.depth ≤ n + 1 := Nat.le_of_lt hv
    -- An argument is a member, which is one deeper than its payload, and stands below the call.
    have harguments : NoDeeper v.depth encode (decode place) :=
      (noDeeper_member tag ih).mono hle
    by_cases happly : k = .apply
    · subst happly
      exact noDeeper_apply harguments h
    · unfold decodePayload at h
      split at h
      · exact absurd rfl happly
      · obtain ⟨hpos, hfields⟩ := Layout.finish_eq_ok h
        obtain ⟨functionId, -, rfl⟩ := result_map_eq_ok_iff.1 hfields
        rw [payload, encodeFunction, Value.depth_object_le_iff]
        exact ⟨hpos, fieldsBelow_textField hpos _ _⟩
      · exact (SubjectDesignator.noDeeper place).of_map hv h fun _ => rfl
      · exact (Designator.noDeeper place).of_map hv h fun _ => rfl
      · exact (Designator.noDeeper place).of_map hv h fun _ => rfl
      · exact (Designator.noDeeper place).of_map hv h fun _ => rfl
      · exact (Selector.noDeeper place).of_map hv h fun _ => rfl
      · exact (AttributeValue.noDeeper place).of_map hv h fun _ => rfl
      · obtain ⟨hpos, hfields⟩ := Layout.finish_eq_ok h
        obtain ⟨variableId, -, rfl⟩ := result_map_eq_ok_iff.1 hfields
        rw [payload, encodeVariable, Value.depth_object_le_iff]
        exact ⟨hpos, fieldsBelow_textField hpos _ _⟩
      · cases h

theorem noDeeper (place : Place) : NoDeeper n encode (decode place) :=
  (noDeeper_member tag (noDeeper_payload place)).mono (Nat.le_succ n)

end Expression

theorem TargetMatch.noDeeper : NoDeeper n TargetMatch.encode TargetMatch.decode := by
  intro v m _ h
  obtain ⟨hpos, hfields⟩ := Layout.finishObject_eq_ok h
  simp only [result_seq_eq_ok_iff, result_map_eq_ok_iff] at hfields
  obtain ⟨_, ⟨_, ⟨matchId, -, rfl⟩, value, hvalue, rfl⟩, source, hsource, rfl⟩ := hfields
  have hvalueBelow := Layout.depth_lt_of_required (AttributeValue.noDeeper .standing) hvalue
  have hsourceBelow := depth_lt_of_merged (AttributeSource.noDeeper .merged) hsource
  rw [encode, Value.depth_object_le_iff]
  simp only [fieldsBelow_append, fieldsBelow_cons, fieldsBelow_nil, fieldsBelow_textField hpos,
    hvalueBelow, hsourceBelow, and_self, and_true]
  exact hpos

theorem noDeeper_listRecord {k item : ElementKind} {encode : α → Value} {decode : Decoder α}
    (h : NoDeeper n encode decode) :
    NoDeeper n (fun as => .object [(item.localName, .array (as.map encode))])
      (decodeListRecord k item decode) := by
  intro v as hv hdecode
  obtain ⟨hpos, hlist⟩ := Layout.finish_eq_ok hdecode
  have hbelow := Layout.depth_lt_of_required (h.list.mono (Nat.le_of_lt hv)) hlist
  rw [Value.depth_object_le_iff, fieldsBelow_cons]
  exact ⟨hpos, hbelow, fieldsBelow_nil _⟩

theorem noDeeper_allOf (c : Category) : NoDeeper n (encodeAllOf c) (decodeAllOf c) :=
  noDeeper_listRecord TargetMatch.noDeeper

theorem noDeeper_anyOf (c : Category) : NoDeeper n (encodeAnyOf c) (decodeAnyOf c) :=
  noDeeper_listRecord (noDeeper_allOf c)

theorem Target.noDeeper : NoDeeper n Target.encode Target.decode := by
  intro v t _ h
  obtain ⟨hpos, hfields⟩ := Layout.finish_eq_ok h
  simp only [result_seq_eq_ok_iff, result_map_eq_ok_iff] at hfields
  obtain ⟨_, ⟨_, ⟨_, ⟨subjects, hsubjects, rfl⟩, resources, hresources, rfl⟩, actions, hactions,
    rfl⟩, environments, henvironments, rfl⟩ := hfields
  rw [encode, Value.depth_object_le_iff]
  simp only [fieldsBelow_append, fieldsBelow_childField?]
  exact ⟨hpos, ⟨⟨Layout.depth_lt_of_optional (noDeeper_anyOf .subject) hsubjects,
    Layout.depth_lt_of_optional (noDeeper_anyOf .resource) hresources⟩,
    Layout.depth_lt_of_optional (noDeeper_anyOf .action) hactions⟩,
    Layout.depth_lt_of_optional (noDeeper_anyOf .environment) henvironments⟩

theorem Defaults.noDeeper : NoDeeper n Defaults.encode Defaults.decode := by
  intro v d _ h
  obtain ⟨hpos, -⟩ := Layout.finish_eq_ok h
  rw [encode, Value.depth_object_le_iff]
  exact ⟨hpos, fieldsBelow_textField hpos _ _⟩

theorem AttributeAssignment.noDeeper :
    NoDeeper n AttributeAssignment.encode AttributeAssignment.decode := by
  intro v a _ h
  obtain ⟨hpos, -⟩ := Layout.finish_eq_ok h
  rw [encode, Value.depth_object_le_iff]
  simp only [fieldsBelow_append, fieldsBelow_textField hpos, and_self, and_true]
  exact hpos

theorem Obligation.noDeeper : NoDeeper n Obligation.encode Obligation.decode := by
  intro v o _ h
  obtain ⟨hpos, hfields⟩ := Layout.finish_eq_ok h
  simp only [result_seq_eq_ok_iff, result_map_eq_ok_iff] at hfields
  obtain ⟨_, ⟨_, ⟨obligationId, -, rfl⟩, fulfillOn, -, rfl⟩, assignments, hassignments, rfl⟩ :=
    hfields
  have heffect : fulfillOn.encode.depth < v.depth := hpos
  rw [encode, Value.depth_object_le_iff]
  simp only [fieldsBelow_append, fieldsBelow_cons, fieldsBelow_nil, fieldsBelow_textField hpos,
    fieldsBelow_listField, heffect, true_and]
  exact ⟨hpos, Layout.depth_lt_of_list AttributeAssignment.noDeeper hassignments⟩

theorem noDeeper_obligations : NoDeeper n encodeObligations decodeObligations :=
  noDeeper_listRecord Obligation.noDeeper

theorem CombinerParameter.noDeeper :
    NoDeeper n CombinerParameter.encode CombinerParameter.decode := by
  intro v p _ h
  obtain ⟨hpos, hfields⟩ := Layout.finish_eq_ok h
  simp only [result_seq_eq_ok_iff, result_map_eq_ok_iff] at hfields
  obtain ⟨_, ⟨name, -, rfl⟩, value, hvalue, rfl⟩ := hfields
  have hbelow := Layout.depth_lt_of_required (AttributeValue.noDeeper .standing) hvalue
  rw [encode, Value.depth_object_le_iff]
  simp only [fieldsBelow_append, fieldsBelow_cons, fieldsBelow_nil, fieldsBelow_textField hpos,
    hbelow, and_self, and_true]
  exact hpos

theorem fieldsBelow_parameterField {l : Layout} {v : Value} {ps : List CombinerParameter}
    (h : (parametersOf l v).result = .ok ps) : FieldsBelow v.depth (parameterField ps) := by
  rw [parameterField, fieldsBelow_listField]
  exact Layout.depth_lt_of_list CombinerParameter.noDeeper h

theorem noDeeper_parameters : NoDeeper n encodeParameters decodeParameters := by
  intro v ps _ h
  obtain ⟨hpos, hparameters⟩ := Layout.finish_eq_ok h
  rw [encodeParameters, Value.depth_object_le_iff]
  exact ⟨hpos, fieldsBelow_parameterField hparameters⟩

theorem noDeeper_scoped (s : ParameterScope) : NoDeeper n (encodeScoped s) (decodeScoped s) := by
  intro v ps _ h
  obtain ⟨hpos, hfields⟩ := Layout.finish_eq_ok h
  simp only [result_seq_eq_ok_iff, result_map_eq_ok_iff] at hfields
  obtain ⟨_, ⟨idRef, -, rfl⟩, parameters, hparameters, rfl⟩ := hfields
  rw [encodeScoped, Value.depth_object_le_iff, fieldsBelow_append]
  exact ⟨hpos, fieldsBelow_textField hpos _ _, fieldsBelow_parameterField hparameters⟩

theorem VariableDefinition.noDeeper :
    NoDeeper n VariableDefinition.encode VariableDefinition.decode := by
  intro v d _ h
  obtain ⟨hpos, hfields⟩ := Layout.finishObject_eq_ok h
  simp only [result_seq_eq_ok_iff, result_map_eq_ok_iff] at hfields
  obtain ⟨_, ⟨variableId, -, rfl⟩, expression, hexpression, rfl⟩ := hfields
  have hbelow := depth_lt_of_merged (Expression.noDeeper_payload .merged) hexpression
  rw [encode, Value.depth_object_le_iff]
  simp only [fieldsBelow_append, fieldsBelow_cons, fieldsBelow_nil, fieldsBelow_textField hpos,
    hbelow, and_self, and_true]
  exact hpos

theorem Rule.noDeeper : NoDeeper n Rule.encode Rule.decode := by
  intro v r _ h
  obtain ⟨hpos, hfields⟩ := Layout.finish_eq_ok h
  simp only [result_seq_eq_ok_iff, result_map_eq_ok_iff] at hfields
  obtain ⟨_, ⟨_, ⟨_, ⟨_, ⟨ruleId, -, rfl⟩, effect, -, rfl⟩, description, -, rfl⟩, target, htarget,
    rfl⟩, condition, hcondition, rfl⟩ := hfields
  have heffect : effect.encode.depth < v.depth := hpos
  rw [encode, Value.depth_object_le_iff]
  simp only [fieldsBelow_append, fieldsBelow_cons, fieldsBelow_nil, fieldsBelow_textField hpos,
    fieldsBelow_textField? hpos, fieldsBelow_childField?, heffect, true_and, and_true]
  exact ⟨hpos, Layout.depth_lt_of_optional Target.noDeeper htarget,
    Layout.depth_lt_of_optional (Expression.noDeeper .standing) hcondition⟩

/-- What stands under the name of the member. -/
def PolicyMember.payload (m : PolicyMember) : Value :=
  m.toNode.payload

theorem PolicyMember.encode_eq :
    PolicyMember.encode = fun m => variant m.toNode.tag m.payload := by
  funext m
  cases m <;> rfl

theorem PolicyMember.noDeeper_payload (k : ElementKind) :
    NoDeeper n PolicyMember.payload (PolicyMember.decodePayload k) := by
  intro v m hv h
  unfold decodePayload at h
  split at h
  · exact noDeeper_parameters.of_map hv h fun _ => rfl
  · exact (noDeeper_scoped .rule).of_map hv h fun _ => rfl
  · exact VariableDefinition.noDeeper.of_map hv h fun _ => rfl
  · exact Rule.noDeeper.of_map hv h fun _ => rfl
  · cases h

theorem PolicyMember.noDeeper : NoDeeper n PolicyMember.encode PolicyMember.decode := by
  rw [encode_eq]
  exact (noDeeper_member _ noDeeper_payload).mono (Nat.le_succ n)

theorem Policy.noDeeper : NoDeeper n Policy.encode Policy.decode := by
  intro v p _ h
  obtain ⟨hpos, hfields⟩ := Layout.finish_eq_ok h
  simp only [result_seq_eq_ok_iff, result_map_eq_ok_iff] at hfields
  obtain ⟨_, ⟨_, ⟨_, ⟨_, ⟨_, ⟨_, ⟨_, ⟨_, ⟨policyId, -, rfl⟩, version, -, rfl⟩, algorithm, -, rfl⟩,
    description, -, rfl⟩, defaults, hdefaults, rfl⟩, parameters, hparameters, rfl⟩, target, htarget,
    rfl⟩, content, hcontent, rfl⟩, obligations, hobligations, rfl⟩ := hfields
  rw [encode, Value.depth_object_le_iff]
  simp only [fieldsBelow_append, fieldsBelow_textField hpos, fieldsBelow_textField? hpos,
    fieldsBelow_childField?, fieldsBelow_listField, true_and]
  exact ⟨hpos, ⟨⟨⟨Layout.depth_lt_of_optional Defaults.noDeeper hdefaults,
    Layout.depth_lt_of_optional noDeeper_parameters hparameters⟩,
    Layout.depth_lt_of_optional Target.noDeeper htarget⟩,
    Layout.depth_lt_of_list PolicyMember.noDeeper hcontent⟩,
    Layout.depth_lt_of_optional noDeeper_obligations hobligations⟩

theorem IdReference.noDeeper : NoDeeper n IdReference.encode IdReference.decode := by
  intro v r _ h
  obtain ⟨hpos, -⟩ := Layout.finish_eq_ok h
  rw [encode, Value.depth_object_le_iff]
  simp only [fieldsBelow_append, fieldsBelow_textField hpos, fieldsBelow_textField? hpos, and_self,
    and_true]
  exact hpos

/-- What stands under the name of the member. -/
def SetMember.payload (m : SetMember PolicySet) : Value :=
  m.toNode.payload

theorem SetMember.encode_eq :
    SetMember.encode = fun m => variant m.toNode.tag m.payload := by
  funext m
  cases m with
  | reference kind r => cases kind <;> rfl
  | _ => rfl

/-- A member of a set is written no deeper if the sets among the members are. -/
theorem SetMember.noDeeper_payload (hset : NoDeeper n PolicySet.encode PolicySet.decode)
    (k : ElementKind) :
    NoDeeper n SetMember.payload fun v =>
      SetMember.decodePayload (fun _ => PolicySet.decode v) k v := by
  intro v m hv h
  unfold decodePayload at h
  split at h
  · exact hset.of_map hv h fun _ => rfl
  · exact Policy.noDeeper.of_map hv h fun _ => rfl
  · exact IdReference.noDeeper.of_map hv h fun _ => rfl
  · exact IdReference.noDeeper.of_map hv h fun _ => rfl
  · exact noDeeper_parameters.of_map hv h fun _ => rfl
  · exact (noDeeper_scoped .policy).of_map hv h fun _ => rfl
  · exact (noDeeper_scoped .policySet).of_map hv h fun _ => rfl
  · cases h

/-- In whatever form a set is accepted, it is written no deeper than it was. -/
theorem PolicySet.noDeeper : NoDeeper n PolicySet.encode PolicySet.decode := by
  induction n with
  | zero => exact fun v _ hv => absurd hv (Nat.not_lt_zero _)
  | succ n ih =>
    intro v s hv h
    -- The members stand below the set, and so do the sets among them.
    have hmembers : NoDeeper v.depth SetMember.encode SetMember.decode := by
      rw [SetMember.encode_eq]
      exact (noDeeper_member _ (SetMember.noDeeper_payload ih)).mono (Nat.le_of_lt hv)
    rw [decode_eq] at h
    obtain ⟨hpos, hfields⟩ := Layout.finish_eq_ok h
    simp only [fieldsOf, result_seq_eq_ok_iff, result_map_eq_ok_iff] at hfields
    obtain ⟨_, ⟨_, ⟨_, ⟨_, ⟨_, ⟨_, ⟨_, ⟨setId, -, rfl⟩, version, -, rfl⟩, algorithm, -, rfl⟩,
      description, -, rfl⟩, defaults, hdefaults, rfl⟩, target, htarget, rfl⟩, content, hcontent,
      rfl⟩, obligations, hobligations, rfl⟩ := hfields
    rw [encode, fieldsAround, encodeMembers_eq_map, Value.depth_object_le_iff]
    simp only [fieldsBelow_append, fieldsBelow_textField hpos, fieldsBelow_textField? hpos,
      fieldsBelow_childField?, fieldsBelow_listField, true_and]
    exact ⟨hpos, ⟨⟨Layout.depth_lt_of_optional Defaults.noDeeper hdefaults,
      Layout.depth_lt_of_optional Target.noDeeper htarget⟩,
      Layout.depth_lt_of_list hmembers hcontent⟩,
      Layout.depth_lt_of_optional noDeeper_obligations hobligations⟩

end AccessPolicy
