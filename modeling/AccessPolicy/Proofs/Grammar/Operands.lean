import AccessPolicy.Proofs.Grammar.Slots
import AccessPolicy.Proofs.Json.Faultless

namespace AccessPolicy

open Json

namespace Json

/-- The members that bear the name of one of `kinds`, in the order in which they stand. -/
def Value.operands (kinds : List ElementKind) : Value → List (ElementKind × Value)
  | .object ms => ms.filterMap fun m =>
    ((ElementKind.tableOf kinds).lookup m.1).map fun k => (k, m.2)
  | _ => []

theorem merged_eq_operands (choice : String) (kinds : List ElementKind) (v : Value)
    (decode : ElementKind → Decoder α) :
    merged choice (ElementKind.tableOf kinds) v decode =
      ⟨[], match (v.operands kinds).head? with
        | some (k, payload) => decode k payload
        | none => .error (.noVariant choice)⟩ := by
  cases v with
  | object ms =>
    rw [merged, Value.operands, List.head?_filterMap]
    cases ms.findSome? fun m => ((ElementKind.tableOf kinds).lookup m.1).map fun k => (k, m.2) <;> rfl
  | _ => rfl

theorem faultless_merged (choice : String) (kinds : List ElementKind) (v : Value)
    (decode : ElementKind → Decoder α) :
    (merged choice (ElementKind.tableOf kinds) v decode).Faultless := by
  intro a _
  rw [merged_eq_operands]

theorem result_merged_eq_ok_iff {choice : String} {kinds : List ElementKind} {v : Value}
    {decode : ElementKind → Decoder α} {a : α} :
    (merged choice (ElementKind.tableOf kinds) v decode).result = .ok a ↔
      ∃ k payload, (v.operands kinds).head? = some (k, payload) ∧ decode k payload = .ok a := by
  rw [merged_eq_operands]
  obtain _ | ⟨k, payload⟩ := (v.operands kinds).head? <;> simp

theorem operands_of_last {kinds : List ElementKind} {k : ElementKind} {tag : String}
    {payload : Value} {ms : List (String × Value)} (htag : tag = k.localName) (hkind : k ∈ kinds)
    (hothers : ∀ m ∈ ms, ∀ l ∈ kinds, l.localName ≠ m.1) :
    (Value.object (ms ++ [(tag, payload)])).operands kinds = [(k, payload)] := by
  subst htag
  have hnone : ms.filterMap (fun m =>
      ((ElementKind.tableOf kinds).lookup m.1).map fun l => (l, m.2)) = [] := by
    rw [List.filterMap_eq_nil_iff]
    intro m hm
    rw [ElementKind.lookup_tableOf_eq_none (hothers m hm)]
    rfl
  rw [Value.operands, List.filterMap_append, hnone]
  simp [ElementKind.lookup_tableOf_eq_some hkind]

end Json

theorem AttributeSource.kind_of_decodePayload {place : Place} {k : ElementKind} {v : Value}
    {s : AttributeSource} (h : decodePayload place k v = .ok s) : s.kind = k := by
  unfold decodePayload at h
  split at h
  case h_6 => cases h
  all_goals
    obtain ⟨_, -, rfl⟩ := map_eq_ok_iff.1 h
    rfl

theorem Expression.kind_of_decodePayload {place : Place} {k : ElementKind} {v : Value}
    {e : Expression} (h : decodePayload place k v = .ok e) : e.kind = k := by
  unfold decodePayload at h
  split at h
  · obtain ⟨_, hfields⟩ := Layout.finish_eq_ok h
    simp only [result_seq_eq_ok_iff] at hfields
    obtain ⟨_, hfunction, _, -, rfl⟩ := hfields
    obtain ⟨_, -, rfl⟩ := result_map_eq_ok_iff.1 hfunction
    rfl
  · obtain ⟨_, hfields⟩ := Layout.finish_eq_ok h
    obtain ⟨_, -, rfl⟩ := result_map_eq_ok_iff.1 hfields
    rfl
  case h_9 =>
    obtain ⟨_, hfields⟩ := Layout.finish_eq_ok h
    obtain ⟨_, -, rfl⟩ := result_map_eq_ok_iff.1 hfields
    rfl
  case h_10 => cases h
  -- What is left is made of one value.
  all_goals
    obtain ⟨_, -, rfl⟩ := map_eq_ok_iff.1 h
    rfl

theorem VariableDefinition.decode_eq_ok_iff {v : Value} {d : VariableDefinition} :
    decode v = .ok d ↔ ∃ ms payload, v = .object ms ∧
      member? "VariableId" ms = some (.string d.variableId) ∧
      (v.operands Expression.kinds).head? = some (d.expression.kind, payload) ∧
      Expression.decodePayload .merged d.expression.kind payload = .ok d.expression := by
  have hfaultless := ((layout.faultless_required v "VariableId" string).map
    VariableDefinition.mk).seq (faultless_merged "Expression" Expression.kinds v
      (Expression.decodePayload .merged))
  rw [decode, Layout.finishObject_eq_ok_iff hfaultless]
  constructor
  · rintro ⟨⟨ms, rfl⟩, hfields⟩
    simp only [result_seq_eq_ok_iff, result_map_eq_ok_iff, result_merged_eq_ok_iff,
      Layout.result_required_object_eq_ok_iff, string_eq_ok_iff] at hfields
    obtain ⟨_, ⟨variableId, ⟨_, hid, rfl⟩, rfl⟩, e, ⟨k, payload, hhead, he⟩, rfl⟩ := hfields
    obtain rfl := Expression.kind_of_decodePayload he
    exact ⟨ms, payload, rfl, hid, hhead, he⟩
  · rintro ⟨ms, payload, rfl, hid, hhead, he⟩
    refine ⟨⟨ms, rfl⟩, ?_⟩
    simp only [result_seq_eq_ok_iff, result_map_eq_ok_iff, result_merged_eq_ok_iff,
      Layout.result_required_object_eq_ok_iff, string_eq_ok_iff]
    exact ⟨_, ⟨_, ⟨_, hid, rfl⟩, rfl⟩, _, ⟨_, payload, hhead, he⟩, rfl⟩

theorem TargetMatch.decode_eq_ok_iff {v : Value} {m : TargetMatch} :
    decode v = .ok m ↔ ∃ ms literal payload, v = .object ms ∧
      member? "MatchId" ms = some (.string m.matchId) ∧
      member? "AttributeValue" ms = some literal ∧
      AttributeValue.decode .standing literal = .ok m.value ∧
      (v.operands AttributeSource.kinds).head? = some (m.source.kind, payload) ∧
      AttributeSource.decodePayload .merged m.source.kind payload = .ok m.source := by
  have hfaultless := (((layout.faultless_required v "MatchId" string).map TargetMatch.mk).seq
    (layout.faultless_required v "AttributeValue" (AttributeValue.decode .standing))).seq
      (faultless_merged "MatchSource" AttributeSource.kinds v
        (AttributeSource.decodePayload .merged))
  rw [decode, Layout.finishObject_eq_ok_iff hfaultless]
  constructor
  · rintro ⟨⟨ms, rfl⟩, hfields⟩
    simp only [result_seq_eq_ok_iff, result_map_eq_ok_iff, result_merged_eq_ok_iff,
      Layout.result_required_object_eq_ok_iff, string_eq_ok_iff] at hfields
    obtain ⟨_, ⟨_, ⟨matchId, ⟨_, hid, rfl⟩, rfl⟩, value, ⟨literal, hliteral, hvalue⟩, rfl⟩, s,
      ⟨k, payload, hhead, hs⟩, rfl⟩ := hfields
    obtain rfl := AttributeSource.kind_of_decodePayload hs
    exact ⟨ms, literal, payload, rfl, hid, hliteral, hvalue, hhead, hs⟩
  · rintro ⟨ms, literal, payload, rfl, hid, hliteral, hvalue, hhead, hs⟩
    refine ⟨⟨ms, rfl⟩, ?_⟩
    simp only [result_seq_eq_ok_iff, result_map_eq_ok_iff, result_merged_eq_ok_iff,
      Layout.result_required_object_eq_ok_iff, string_eq_ok_iff]
    exact ⟨_, ⟨_, ⟨_, ⟨_, hid, rfl⟩, rfl⟩, _, ⟨literal, hliteral, hvalue⟩, rfl⟩, _,
      ⟨_, payload, hhead, hs⟩, rfl⟩

theorem decodeMember_variant {kinds : List ElementKind} {decodePayload : ElementKind → Decoder α}
    {k : ElementKind} (hk : k ∈ kinds) (payload : Value) :
    decodeMember kinds decodePayload (variant k.localName payload) = decodePayload k payload := by
  rw [decodeMember, variant, tagged, pick, ElementKind.lookup_tableOf_eq_some hk]
  rfl

/-- An alternative with a payload stands alone in its object. -/
theorem decodeMember_eq_ok_iff {kinds : List ElementKind} {decodePayload : ElementKind → Decoder α}
    {v : Value} {a : α} :
    decodeMember kinds decodePayload v = .ok a ↔
      ∃ k ∈ kinds, ∃ payload, v = variant k.localName payload ∧ decodePayload k payload = .ok a := by
  constructor
  · intro h
    obtain ⟨⟨⟨k, payload⟩, _⟩, htagged, ha⟩ := bind_eq_ok_iff.1 h
    unfold tagged at htagged
    split at htagged
    · obtain ⟨l, hpick, hpair⟩ := map_eq_ok_iff.1 htagged
      obtain ⟨rfl, rfl⟩ := Prod.mk.inj (Subtype.mk.inj hpair)
      unfold pick at hpick
      split at hpick
      · next hlookup =>
        obtain rfl := Except.ok.inj hpick
        obtain ⟨hk, rfl⟩ := ElementKind.lookup_tableOf_eq_some_iff.1 hlookup
        exact ⟨_, hk, _, rfl, ha⟩
      · cases hpick
    · cases htagged
    · obtain ⟨_, -, hnone⟩ := bind_eq_ok_iff.1 htagged
      cases hnone
    · cases htagged
  · rintro ⟨k, hk, payload, rfl, ha⟩
    rw [decodeMember_variant hk, ha]

theorem Expression.decode_eq_ok_iff {place : Place} {v : Value} {e : Expression} :
    decode place v = .ok e ↔
      ∃ payload, v = variant e.kind.localName payload ∧
        decodePayload place e.kind payload = .ok e := by
  rw [decode, decodeMember_eq_ok_iff]
  constructor
  · rintro ⟨k, -, payload, rfl, he⟩
    obtain rfl := kind_of_decodePayload he
    exact ⟨payload, rfl, he⟩
  · rintro ⟨payload, rfl, he⟩
    exact ⟨e.kind, e.kind_mem_kinds, payload, rfl, he⟩

theorem VariableDefinition.operands_encode (d : VariableDefinition) :
    d.encode.operands Expression.kinds = [(d.expression.kind, d.expression.payload)] := by
  have hkinds : ∀ k ∈ Expression.kinds, k.localName ≠ "VariableId" := by decide
  exact operands_of_last d.expression.tag_eq d.expression.kind_mem_kinds
    (by simpa [textField] using hkinds)

theorem TargetMatch.operands_encode (m : TargetMatch) :
    m.encode.operands AttributeSource.kinds = [(m.source.kind, m.source.payload)] := by
  have hkinds : ∀ k ∈ AttributeSource.kinds,
      k.localName ≠ "MatchId" ∧ k.localName ≠ "AttributeValue" := by decide
  refine operands_of_last m.source.tag_eq m.source.kind_mem_kinds fun f hf k hk => ?_
  simp only [textField, List.singleton_append, List.mem_cons, List.not_mem_nil, or_false] at hf
  obtain rfl | rfl := hf
  · exact (hkinds k hk).1
  · exact (hkinds k hk).2

/-- Where one operand is written, no name is lost if the value that was read had no other. -/
theorem Value.names_kept_iff {kinds : List ElementKind} {v w : Value} {k : ElementKind}
    {payload written : Value} (hhead : (v.operands kinds).head? = some (k, payload))
    (hwritten : w.operands kinds = [(k, written)]) :
    (w.operands kinds).map Prod.fst = (v.operands kinds).map Prod.fst ↔
      (v.operands kinds).length = 1 := by
  obtain ⟨rest, hrest⟩ := List.head?_eq_some_iff.1 hhead
  rw [hwritten, hrest]
  constructor
  · intro h
    obtain ⟨-, hnone⟩ := List.cons.inj h
    rw [List.map_eq_nil_iff.1 hnone.symm]
    rfl
  · intro h
    rw [List.eq_nil_of_length_eq_zero (Nat.succ.inj h)]
    rfl

/-- Exactly what is accepted in the three slots for one operand: a definition and a match take
the first member that names an operand, whatever stands behind it, and are written with that one
alone, so that nothing is lost if and only if it is the only one; a condition is an object with
one member. -/
theorem operands_of_decoded (v : Value) :
    (∀ d, VariableDefinition.decode v = .ok d ↔ ∃ ms payload, v = .object ms ∧
      member? "VariableId" ms = some (.string d.variableId) ∧
      (v.operands Expression.kinds).head? = some (d.expression.kind, payload) ∧
      Expression.decodePayload .merged d.expression.kind payload = .ok d.expression) ∧
    (∀ m, TargetMatch.decode v = .ok m ↔ ∃ ms literal payload, v = .object ms ∧
      member? "MatchId" ms = some (.string m.matchId) ∧
      member? "AttributeValue" ms = some literal ∧
      AttributeValue.decode .standing literal = .ok m.value ∧
      (v.operands AttributeSource.kinds).head? = some (m.source.kind, payload) ∧
      AttributeSource.decodePayload .merged m.source.kind payload = .ok m.source) ∧
    (∀ e, Expression.decode .standing v = .ok e ↔ ∃ payload,
      v = .object [(e.kind.localName, payload)] ∧
      Expression.decodePayload .standing e.kind payload = .ok e) ∧
    (∀ d, VariableDefinition.decode v = .ok d →
      d.encode.operands Expression.kinds = [(d.expression.kind, d.expression.payload)] ∧
      ((d.encode.operands Expression.kinds).map Prod.fst =
        (v.operands Expression.kinds).map Prod.fst ↔ (v.operands Expression.kinds).length = 1)) ∧
    ∀ m, TargetMatch.decode v = .ok m →
      m.encode.operands AttributeSource.kinds = [(m.source.kind, m.source.payload)] ∧
      ((m.encode.operands AttributeSource.kinds).map Prod.fst =
        (v.operands AttributeSource.kinds).map Prod.fst ↔
          (v.operands AttributeSource.kinds).length = 1) := by
  refine ⟨fun _ => VariableDefinition.decode_eq_ok_iff, fun _ => TargetMatch.decode_eq_ok_iff,
    fun _ => Expression.decode_eq_ok_iff, fun d h => ?_, fun m h => ?_⟩
  · obtain ⟨ms, payload, -, -, hhead, -⟩ := VariableDefinition.decode_eq_ok_iff.1 h
    exact ⟨d.operands_encode, Value.names_kept_iff hhead d.operands_encode⟩
  · obtain ⟨ms, literal, payload, -, -, -, -, hhead, -⟩ := TargetMatch.decode_eq_ok_iff.1 h
    exact ⟨m.operands_encode, Value.names_kept_iff hhead m.operands_encode⟩

/-- A definition that states a value and a function. -/
def twoExpressions : Value :=
  .object [("AttributeValue", .object [("DataType", .string "t"), ("Value", .string "x")]),
    ("Function", .object [("FunctionId", .string "f")]), ("VariableId", .string "v")]

/-- A match with two paths into the request. -/
def twoSources : Value :=
  .object [("AttributeSelector",
      .object [("DataType", .string "t"), ("RequestContextPath", .string "p")]),
    ("AttributeValue", .object [("DataType", .string "t"), ("Value", .string "x")]),
    ("MatchId", .string "m"),
    ("ResourceAttributeDesignator",
      .object [("AttributeId", .string "a"), ("DataType", .string "t")])]

/-- Both are accepted with their first operand, and the second is gone from what is written. -/
theorem second_operand_lost :
    ((twoExpressions.operands Expression.kinds).map Prod.fst = [.attributeValue, .function] ∧
      VariableDefinition.decode twoExpressions = .ok ⟨"v", .value ⟨"t", "x"⟩⟩ ∧
      VariableDefinition.encode ⟨"v", .value ⟨"t", "x"⟩⟩ =
        .object [("VariableId", .string "v"),
          ("AttributeValue", .object [("DataType", .string "t"), ("Value", .string "x")])]) ∧
    (twoSources.operands AttributeSource.kinds).map Prod.fst =
        [.attributeSelector, .resourceAttributeDesignator] ∧
      TargetMatch.decode twoSources = .ok ⟨"m", ⟨"t", "x"⟩, .selector ⟨"p", "t", false⟩⟩ ∧
      TargetMatch.encode ⟨"m", ⟨"t", "x"⟩, .selector ⟨"p", "t", false⟩⟩ =
        .object [("MatchId", .string "m"),
          ("AttributeValue", .object [("DataType", .string "t"), ("Value", .string "x")]),
          ("AttributeSelector",
            .object [("RequestContextPath", .string "p"), ("DataType", .string "t")])] := by
  refine ⟨⟨by decide, ?_, rfl⟩, by decide, rfl, rfl⟩
  refine VariableDefinition.decode_eq_ok_iff.2 ⟨_, _, rfl, rfl, rfl, ?_⟩
  rw [Expression.kind, Expression.decodePayload]
  rfl

end AccessPolicy
