import AccessPolicy.Proofs.Grammar.Target

namespace AccessPolicy

open Json

theorem Defaults.denotes (d : Defaults) : d.encode.Denotes Defaults.decode d := by
  constructor
  · simp [encode, Value.legible_object]
  · rw [encode, decode, Layout.required_of_last "XPathVersion" ?_ (denotes_string d.xpathVersion)]
    · rfl
    · simp

theorem AttributeAssignment.denotes (a : AttributeAssignment) :
    a.encode.Denotes AttributeAssignment.decode a := by
  constructor
  · simp [encode, Value.legible_object]
  · rw [encode, decode, Layout.required_of_last "DataType" ?_ (denotes_string a.dataType),
      Layout.required_of_last "AttributeId" ?_ (denotes_string a.attributeId),
      Layout.required_of_last "Value" ?_ (denotes_string a.value)]
    · rfl
    all_goals simp

theorem Effect.denotes (e : Effect) : e.encode.Denotes Effect.decode e := by
  refine ⟨Value.legible_string e.name, ?_⟩
  cases e <;> rfl

theorem Obligation.denotes (o : Obligation) : o.encode.Denotes Obligation.decode o := by
  constructor
  · simpa [encode, Value.legible_object] using
      ⟨(Effect.denotes o.fulfillOn).legible, fun a _ => a.denotes.legible⟩
  · rw [encode, decode, Layout.required_of_last "ObligationId" ?_ (denotes_string o.obligationId),
      Layout.required_of_last "FulfillOn" ?_ (Effect.denotes o.fulfillOn),
      Layout.list_of_last "AttributeAssignment" ?_ fun a _ => a.denotes]
    · rfl
    all_goals simp

theorem obligations_denotes (os : List Obligation) :
    (encodeObligations os).Denotes decodeObligations os :=
  listRecord_denotes .obligations .obligation fun o _ => o.denotes

theorem CombinerParameter.denotes (p : CombinerParameter) :
    p.encode.Denotes CombinerParameter.decode p := by
  have hvalue := AttributeValue.denotes .standing p.value
  constructor
  · simpa [encode, Value.legible_object] using hvalue.legible
  · rw [encode, decode, Layout.required_of_last "ParameterName" ?_ (denotes_string p.name),
      Layout.required_of_last "AttributeValue" ?_ hvalue]
    · rfl
    all_goals simp

theorem legible_parameterField (ps : List CombinerParameter) :
    LegibleFields (parameterField ps) := by
  simpa [parameterField] using fun p _ => (CombinerParameter.denotes p).legible

theorem lastMember?_parameterField (key : String) (ps : List CombinerParameter) :
    lastMember? key (parameterField ps) =
      if key = "CombinerParameter" then
        (if ps.map CombinerParameter.encode = [] then none
          else some (.array (ps.map CombinerParameter.encode)))
      else none := by
  rw [parameterField, lastMember?_listField]

theorem parametersOf_sorted (l : Layout) {ms : List (String × Value)} (ps : List CombinerParameter)
    (hlast : lastMember? "CombinerParameter" ms =
      lastMember? "CombinerParameter" (parameterField ps)) :
    parametersOf l (Value.object ms).sorted = pure ps := by
  rw [lastMember?_parameterField, if_pos rfl] at hlast
  exact Layout.list_of_last "CombinerParameter" hlast fun p _ => p.denotes

theorem parameters_denotes (ps : List CombinerParameter) :
    (encodeParameters ps).Denotes decodeParameters ps := by
  constructor
  · simpa [encodeParameters, Value.legible_object] using legible_parameterField ps
  · rw [encodeParameters, decodeParameters, parametersOf_sorted _ ps rfl]
    rfl

theorem scoped_denotes (s : ParameterScope) (ps : ScopedParameters) :
    (encodeScoped s ps).Denotes (decodeScoped s) ps := by
  have hid : s.idField ≠ "CombinerParameter" := by cases s <;> decide
  constructor
  · simpa [encodeScoped, Value.legible_object] using legible_parameterField ps.parameters
  · rw [encodeScoped, decodeScoped, Layout.required_of_last s.idField ?_ (denotes_string ps.idRef),
      parametersOf_sorted _ ps.parameters ?_]
    · rfl
    · simp [Ne.symm hid]
    · simp [lastMember?_parameterField, hid]

theorem VariableDefinition.denotes (d : VariableDefinition) :
    d.encode.Denotes VariableDefinition.decode d := by
  have hexpression := Expression.payload_denotes .merged d.expression
  have hname : ∀ k ∈ Expression.kinds, k.localName ≠ "VariableId" := by decide
  constructor
  · simpa [encode, Value.legible_object] using hexpression.legible
  · rw [encode, decode, Layout.required_of_last "VariableId" ?_ (denotes_string d.variableId),
      merged_of_last d.expression.tag_eq d.expression.kind_mem_kinds ?_ hexpression]
    · rfl
    · intro field hfield k hk
      obtain rfl : field = ("VariableId", .string d.variableId) := by simpa [textField] using hfield
      exact hname k hk
    · simp [d.expression.tag_eq, Ne.symm (hname _ d.expression.kind_mem_kinds)]

/-- A rule is read again from what is written for it. -/
theorem Rule.denotes (r : Rule) : r.encode.Denotes Rule.decode r := by
  have heffect := Effect.denotes r.effect
  have htarget := Target.denotes_child r.target
  have hcondition := Expression.denotes_child .standing r.condition
  constructor
  · rw [encode, Value.legible_object]
    simp only [legibleFields_append, legibleFields_textField, legibleFields_textField?,
      legibleFields_childField?, legibleFields_cons, legibleFields_nil, true_and, and_true]
    exact ⟨⟨heffect.legible, fun t ht => (htarget t ht).1.legible⟩,
      fun e he => (hcondition e he).1.legible⟩
  · rw [encode, decode, Layout.required_of_last "RuleId" ?_ (denotes_string r.ruleId),
      Layout.required_of_last "Effect" ?_ heffect,
      Layout.optional_of_last "Description" ?_ (denotes_string_child r.description),
      Layout.optional_of_last "Target" ?_ htarget,
      Layout.optional_of_last "Condition" ?_ hcondition]
    · rfl
    all_goals simp

end AccessPolicy
