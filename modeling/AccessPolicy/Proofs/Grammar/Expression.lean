import AccessPolicy.Proofs.Grammar.Group
import AccessPolicy.Proofs.Grammar.Kind

namespace AccessPolicy

open Json

theorem AttributeValue.denotes (place : Place) (v : AttributeValue) :
    v.encode.Denotes (AttributeValue.decode place) v := by
  constructor
  · simp [encode, Value.legible_object]
  · rw [encode, decode, Layout.required_of_last "DataType" ?_ (denotes_string v.dataType),
      Layout.required_of_last "Value" ?_ (denotes_string v.value)]
    · rfl
    all_goals simp

theorem Designator.legible_fields (d : Designator) : LegibleFields d.fields := by
  simp [fields]

theorem Designator.fieldsOf_sorted (l : Layout) (d : Designator)
    (ms : List (String × Value)) (hid : lastMember? "AttributeId" ms = some (.string d.attributeId))
    (htype : lastMember? "DataType" ms = some (.string d.dataType))
    (hissuer : lastMember? "Issuer" ms = d.issuer.map .string)
    (hpresent : lastMember? "MustBePresent" ms =
      if d.mustBePresent then some (.bool true) else none) :
    fieldsOf l (Value.object ms).sorted = pure d := by
  rw [fieldsOf, Layout.required_of_last "AttributeId" hid (denotes_string d.attributeId),
    Layout.required_of_last "DataType" htype (denotes_string d.dataType),
    Layout.optional_of_last "Issuer" hissuer (denotes_string_child d.issuer),
    Layout.flag_of_last "MustBePresent" hpresent]
  rfl

theorem Designator.denotes (place : Place) (d : Designator) :
    d.encode.Denotes (Designator.decode place) d := by
  constructor
  · simpa [encode, Value.legible_object] using d.legible_fields
  · rw [encode, decode, fieldsOf_sorted _ d]
    · rfl
    all_goals simp [fields]

theorem SubjectDesignator.denotes (place : Place) (d : SubjectDesignator) :
    d.encode.Denotes (SubjectDesignator.decode place) d := by
  constructor
  · simpa [encode, Value.legible_object] using d.legible_fields
  · rw [encode, decode, Designator.fieldsOf_sorted _ d.toDesignator,
      Layout.defaulted_of_last "SubjectCategory" ?_ (denotes_string d.category)]
    · rfl
    all_goals simp [Designator.fields]

theorem Selector.denotes (place : Place) (s : Selector) :
    s.encode.Denotes (Selector.decode place) s := by
  constructor
  · simp [encode, Value.legible_object]
  · rw [encode, decode, Layout.required_of_last "RequestContextPath" ?_ (denotes_string s.path),
      Layout.required_of_last "DataType" ?_ (denotes_string s.dataType),
      Layout.flag_of_last "MustBePresent" ?_]
    · rfl
    all_goals simp

namespace AttributeSource

theorem kind_mem_kinds (s : AttributeSource) : s.kind ∈ kinds := by
  cases s <;> simp [kind, Expression.source, Expression.kind, kinds]

theorem payload_denotes (place : Place) (s : AttributeSource) :
    s.payload.Denotes (decodePayload place s.kind) s := by
  cases s with
  | subjectDesignator d => exact (SubjectDesignator.denotes place d).map subjectDesignator
  | resourceDesignator d => exact (Designator.denotes place d).map resourceDesignator
  | actionDesignator d => exact (Designator.denotes place d).map actionDesignator
  | environmentDesignator d => exact (Designator.denotes place d).map environmentDesignator
  | selector s => exact (Selector.denotes place s).map selector

end AttributeSource

namespace Expression

theorem kind_mem_kinds (e : Expression) : e.kind ∈ kinds := by
  cases e <;> simp [kind, kinds]

theorem member_denotes_of_payload {place : Place} {e : Expression}
    (h : e.payload.Denotes (decodePayload place e.kind) e) : e.encode.Denotes (decode place) e :=
  member_denotes e.kind e.tag_eq e.kind_mem_kinds h

/-- What stands under the name of an expression is read as the expression where it is read as what
the expression is made of. -/
theorem payload_denotes_of_map {place : Place} {k : ElementKind} {payload : Value}
    {decode : Decoder α} {f : α → Expression} {a : α} (h : payload.Denotes decode a)
    (hdecode : ∀ v, decodePayload place k v = (decode v).map f) :
    payload.Denotes (decodePayload place k) (f a) := by
  rw [funext hdecode]
  exact h.map f

mutual

theorem payload_denotes (place : Place) : (e : Expression) →
    e.payload.Denotes (decodePayload place e.kind) e
  | .apply functionId arguments => by
    have harguments := all_denote place arguments
    constructor
    · rw [payload, encodeAll_eq_map, encodeApply, Value.legible_object]
      simpa using fun e he => (harguments e he).legible
    · rw [payload, kind, decodePayload_apply, encodeAll_eq_map, encodeApply,
        Layout.required_of_last "FunctionId" ?_ (denotes_string functionId),
        Layout.list_of_last "Content" ?_ harguments]
      · rfl
      all_goals simp
  | .function functionId => by
    constructor
    · simp [payload, encodeFunction, Value.legible_object]
    · rw [payload, kind, decodePayload, encodeFunction,
        Layout.required_of_last "FunctionId" ?_ (denotes_string functionId)]
      · rfl
      · simp
  | .subjectDesignator d =>
    payload_denotes_of_map (SubjectDesignator.denotes place d) fun v => by rw [kind, decodePayload]
  | .resourceDesignator d =>
    payload_denotes_of_map (Designator.denotes place d) fun v => by rw [kind, decodePayload]
  | .actionDesignator d =>
    payload_denotes_of_map (Designator.denotes place d) fun v => by rw [kind, decodePayload]
  | .environmentDesignator d =>
    payload_denotes_of_map (Designator.denotes place d) fun v => by rw [kind, decodePayload]
  | .selector s =>
    payload_denotes_of_map (Selector.denotes place s) fun v => by rw [kind, decodePayload]
  | .value v =>
    payload_denotes_of_map (AttributeValue.denotes place v) fun v => by rw [kind, decodePayload]
  | .variable variableId => by
    constructor
    · simp [payload, encodeVariable, Value.legible_object]
    · rw [payload, kind, decodePayload, encodeVariable,
        Layout.required_of_last "VariableId" ?_ (denotes_string variableId)]
      · rfl
      · simp

theorem all_denote (place : Place) : (es : List Expression) →
    ∀ e ∈ es, e.encode.Denotes (decode place) e
  | [] => by simp
  | e :: es => by
    have hfirst := member_denotes_of_payload (payload_denotes place e)
    have hrest := all_denote place es
    intro f hf
    rcases List.mem_cons.1 hf with rfl | hf
    · exact hfirst
    · exact hrest f hf

end

/-- An expression is read again from what is written for it, whatever the place it stands in. -/
theorem denotes (place : Place) (e : Expression) : e.encode.Denotes (decode place) e :=
  member_denotes_of_payload (payload_denotes place e)

theorem denotes_child (place : Place) (child : Option Expression) : ∀ e ∈ child,
    e.encode.Denotes (decode place) e ∧ e.encode.sorted ≠ .null :=
  fun e _ => ⟨e.denotes place, sorted_object_ne_null _⟩

end Expression

end AccessPolicy
