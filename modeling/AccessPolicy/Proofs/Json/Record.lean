import AccessPolicy.Json.Decode
import AccessPolicy.Proofs.Json.Fields
import AccessPolicy.Proofs.Json.Reading

namespace AccessPolicy.Json

/-- The value is legible, and what is read from its text decodes to `a`. -/
structure Value.Denotes (v : Value) (decode : Decoder α) (a : α) : Prop where
  legible : v.Legible
  decode_sorted : decode v.sorted = .ok a

theorem Value.Denotes.map {v : Value} {decode : Decoder α} {a : α} (h : v.Denotes decode a)
    (f : α → β) : v.Denotes (fun v => (decode v).map f) (f a) := by
  refine ⟨h.legible, ?_⟩
  simp only [h.decode_sorted, Except.map]

theorem map_map_result (x : Except ε α) (f : α → β) (g : β → γ) :
    (x.map f).map g = x.map (g ∘ f) := by
  cases x <;> rfl

theorem map_map_partial (p : Partial α) (f : α → β) (g : β → γ) :
    g <$> f <$> p = (g ∘ f) <$> p :=
  congrArg (Partial.mk p.faults) (map_map_result p.result f g)

theorem map_seq_partial (p : Partial (α → β)) (q : Partial α) (g : β → γ) :
    g <$> (p <*> q) = (g ∘ ·) <$> p <*> q := by
  obtain ⟨faults, f | e⟩ := p
  · rfl
  · exact congrArg (Partial.mk _) (map_map_result q.result _ g)

/-- What is made of a record may as well be made of its fields. -/
theorem Layout.map_finish (l : Layout) (place : Place) (v : Value) (p : Partial α) (f : α → β) :
    (l.finish place v p).map f = l.finish place v (f <$> p) := by
  have hresult : (f <$> p).result = p.result.map f := rfl
  have hfaults : (f <$> p).faults = p.faults := rfl
  cases v with
  | object members =>
    rw [finish, finish, hfaults, hresult]
    cases leastFault p.faults <;> rfl
  | array items =>
    rw [finish, finish, hresult]
    cases p.result with
    | error e => rfl
    | ok a => exact apply_ite (Except.map f) _ _ _
  | _ => rfl

theorem Value.legibleItems_iff {vs : List Value} : LegibleItems vs ↔ ∀ v ∈ vs, v.Legible := by
  induction vs with
  | nil => simp [LegibleItems]
  | cons v vs ih => simp [LegibleItems, ih]

theorem Value.legibleMembers_iff {ms : List (String × Value)} :
    LegibleMembers ms ↔ ∀ m ∈ ms, m.2.Legible := by
  induction ms with
  | nil => simp [LegibleMembers]
  | cons m ms ih => simp [LegibleMembers, ih]

theorem Value.legible_string (s : String) : (Value.string s).Legible := by
  simp [Legible]

theorem Value.legible_bool (b : Bool) : (Value.bool b).Legible := by
  simp [Legible]

theorem Value.legible_array {vs : List Value} :
    (Value.array vs).Legible ↔ ∀ v ∈ vs, v.Legible := by
  rw [Legible, legibleItems_iff]

/-- Whether everything that stands in some fields is legible. -/
def LegibleFields (ms : List (String × Value)) : Prop :=
  ∀ m ∈ ms, m.2.Legible

theorem Value.legible_object {ms : List (String × Value)} :
    (Value.object ms).Legible ↔ LegibleFields ms := by
  rw [Legible, legibleMembers_iff, LegibleFields]

theorem legibleFields_iff {ms : List (String × Value)} :
    LegibleFields ms ↔ EachField (fun _ v => v.Legible) ms :=
  Iff.rfl

@[simp] theorem legibleFields_append {ms ns : List (String × Value)} :
    LegibleFields (ms ++ ns) ↔ LegibleFields ms ∧ LegibleFields ns := by
  simp only [legibleFields_iff, eachField_append]

@[simp] theorem legibleFields_nil : LegibleFields [] := by
  simp only [legibleFields_iff, eachField_nil]

@[simp] theorem legibleFields_cons {key : String} {v : Value} {ms : List (String × Value)} :
    LegibleFields ((key, v) :: ms) ↔ v.Legible ∧ LegibleFields ms := by
  simp only [legibleFields_iff, eachField_cons]

@[simp] theorem legibleFields_textField (key text : String) :
    LegibleFields (textField key text) := by
  simp [legibleFields_iff, Value.legible_string]

@[simp] theorem legibleFields_textField? (key : String) (text : Option String) :
    LegibleFields (textField? key text) := by
  simp [legibleFields_iff, Value.legible_string]

@[simp] theorem legibleFields_flagField (key : String) (flag : Bool) :
    LegibleFields (flagField key flag) := by
  simp [legibleFields_iff, Value.legible_bool]

@[simp] theorem legibleFields_listField {key : String} {items : List Value} :
    LegibleFields (listField key items) ↔ ∀ v ∈ items, v.Legible := by
  rw [legibleFields_iff, eachField_listField, Value.legible_array]
  exact ⟨fun h v hv => h (List.ne_nil_of_mem hv) v hv, fun h _ => h⟩

@[simp] theorem legibleFields_childField? {key : String} {encode : α → Value}
    {child : Option α} :
    LegibleFields (childField? key encode child) ↔ ∀ a ∈ child, (encode a).Legible := by
  simp only [legibleFields_iff, eachField_childField?]

/-- What stands last under a key. -/
def lastMember? (key : String) (ms : List (String × Value)) : Option Value :=
  ms.reverse.lookup key

theorem lookup_sorted (key : String) (ms : List (String × Value)) :
    member? key (sortMembers (Value.sortedMembers ms).reverse) =
      (lastMember? key ms).map Value.sorted := by
  rw [member?, lookup_sortMembers, Value.sortedMembers_eq_map, lastMember?, ← List.map_reverse]
  induction ms.reverse with
  | nil => rfl
  | cons m rest ih =>
    obtain ⟨first, v⟩ := m
    simp only [List.map_cons, List.lookup_cons, ih]
    cases key == first <;> rfl

@[simp] theorem lastMember?_append (key : String) (ms ns : List (String × Value)) :
    lastMember? key (ms ++ ns) = (lastMember? key ns).or (lastMember? key ms) := by
  simp [lastMember?, List.lookup_append]

@[simp] theorem lastMember?_nil (key : String) : lastMember? key [] = none := rfl

@[simp] theorem lastMember?_cons (key other : String) (v : Value) (ms : List (String × Value)) :
    lastMember? key ((other, v) :: ms) =
      (lastMember? key ms).or (if key = other then some v else none) := by
  rw [lastMember?, List.reverse_cons, List.lookup_append, ← lastMember?]
  by_cases h : key = other
  · simp [h]
  · have hne : (key == other) = false := beq_eq_false_iff_ne.2 h
    simp [List.lookup_cons, hne, h]

@[simp] theorem lastMember?_textField (key other text : String) :
    lastMember? key (textField other text) = if key = other then some (.string text) else none := by
  simp [textField]

@[simp] theorem lastMember?_textField? (key other : String) (text : Option String) :
    lastMember? key (textField? other text) = if key = other then text.map .string else none := by
  cases text with
  | none => simp [textField?, lastMember?]
  | some t => simp [textField?]

@[simp] theorem lastMember?_flagField (key other : String) (flag : Bool) :
    lastMember? key (flagField other flag) =
      if key = other then (if flag then some (.bool true) else none) else none := by
  cases flag with
  | false => simp [flagField, lastMember?]
  | true => simp [flagField]

@[simp] theorem lastMember?_listField (key other : String) (items : List Value) :
    lastMember? key (listField other items) =
      if key = other then (if items = [] then none else some (.array items)) else none := by
  cases items with
  | nil => simp [listField, lastMember?]
  | cons v vs => simp [listField]

@[simp] theorem lastMember?_childField? (key other : String) (encode : α → Value)
    (child : Option α) :
    lastMember? key (childField? other encode child) =
      if key = other then child.map encode else none := by
  cases child with
  | none => simp [childField?, lastMember?]
  | some c => simp [childField?]

/-- What a field amounts to that decodes to the outcome. -/
def Partial.ofField (key : String) : Except DecodeError α → Partial α
  | .ok a => ⟨[], .ok a⟩
  | .error e => ⟨[(key, e)], .error e⟩

theorem Layout.field_eq (l : Layout) (key : String) (absent : Except DecodeError α) (v : Value)
    (decode : Decoder α) :
    l.field key absent v (fun c _ => decode c) =
      match l.field? key v with
      | none => ⟨[], absent⟩
      | some c => .ofField key (decode c) := by
  unfold field
  split
  · next hnone => rw [hnone]
  · next c hsome =>
    simp only [hsome]
    cases decode c <;> rfl

theorem field?_sorted (l : Layout) (key : String) (ms : List (String × Value)) :
    l.field? key (Value.object ms).sorted = (lastMember? key ms).map Value.sorted :=
  lookup_sorted key ms

/-- What a field amounts to when nothing or `c` stands last under its key. -/
theorem Layout.field_sorted {l : Layout} {key : String} {ms : List (String × Value)}
    {absent : Except DecodeError α} {decode : Decoder α} :
    l.field key absent (Value.object ms).sorted (fun c _ => decode c) =
      match lastMember? key ms with
      | none => ⟨[], absent⟩
      | some c => .ofField key (decode c.sorted) := by
  rw [field_eq, field?_sorted]
  cases lastMember? key ms <;> rfl

variable {l : Layout} {ms : List (String × Value)}

theorem Layout.required_of_last (key : String) {c : Value} {decode : Decoder α} {a : α}
    (hlast : lastMember? key ms = some c) (hc : c.Denotes decode a) :
    l.required (Value.object ms).sorted key decode = pure a := by
  rw [required, field_sorted, hlast]
  simp only [hc.decode_sorted]
  rfl

theorem Layout.defaulted_of_last (key : String) {c : Value} {decode : Decoder α} {a d : α}
    (hlast : lastMember? key ms = some c) (hc : c.Denotes decode a) :
    l.defaulted (Value.object ms).sorted key d decode = pure a := by
  rw [defaulted, field_sorted, hlast]
  simp only [hc.decode_sorted]
  rfl

theorem Layout.defaulted_of_absent (key : String) {decode : Decoder α} {d : α}
    (hlast : lastMember? key ms = none) :
    l.defaulted (Value.object ms).sorted key d decode = pure d := by
  rw [defaulted, field_sorted, hlast]
  rfl

theorem optional_of_ne_null {decode : Decoder α} {v : Value} (h : v ≠ .null) :
    Json.optional decode v = (decode v).map some := by
  cases v <;> first | rfl | exact (h rfl).elim

/-- A child that is written as an object or a string is not taken for null. -/
theorem Layout.optional_of_last (key : String) {encode : α → Value} {decode : Decoder α}
    {child : Option α}
    (hlast : lastMember? key ms = child.map encode)
    (hchild : ∀ a ∈ child, (encode a).Denotes decode a ∧ (encode a).sorted ≠ .null) :
    l.optional (Value.object ms).sorted key decode = pure child := by
  rw [optional]
  cases child with
  | none => exact defaulted_of_absent key hlast
  | some a =>
    obtain ⟨hdenotes, hnull⟩ := hchild a rfl
    refine defaulted_of_last key hlast ⟨hdenotes.legible, ?_⟩
    rw [optional_of_ne_null hnull, hdenotes.decode_sorted]
    rfl

theorem Layout.flag_of_last (key : String) {flag : Bool}
    (hlast : lastMember? key ms = if flag then some (.bool true) else none) :
    l.defaulted (Value.object ms).sorted key false bool = pure flag := by
  cases flag with
  | false => exact defaulted_of_absent key hlast
  | true => exact defaulted_of_last key hlast ⟨Value.legible_bool true, rfl⟩

theorem list_array (item : Decoder α) (items : List Value) :
    list item (.array items) = items.mapM item := by
  simp [list, listBelow]

theorem denotes_list {encode : α → Value} {decode : Decoder α} {as : List α}
    (h : ∀ a ∈ as, (encode a).Denotes decode a) :
    (Value.array (as.map encode)).Denotes (list decode) as := by
  constructor
  · rw [Value.legible_array]
    intro v hv
    obtain ⟨a, ha, rfl⟩ := List.mem_map.1 hv
    exact (h a ha).legible
  · rw [Value.sorted, Value.sortedItems_eq_map, list_array]
    induction as with
    | nil => rfl
    | cons a as ih =>
      have hfirst := (h a List.mem_cons_self).decode_sorted
      have hrest := ih fun b hb => h b (List.mem_cons_of_mem a hb)
      rw [List.map_cons, List.map_cons, List.mapM_cons, hfirst, hrest]
      rfl

/-- A list that is left out when it is empty. -/
theorem Layout.list_of_last (key : String) {encode : α → Value} {decode : Decoder α} {as : List α}
    (hlast : lastMember? key ms =
      if as.map encode = [] then none else some (.array (as.map encode)))
    (h : ∀ a ∈ as, (encode a).Denotes decode a) :
    l.defaulted (Value.object ms).sorted key [] (list decode) = pure as := by
  cases as with
  | nil => exact defaulted_of_absent key hlast
  | cons a as => exact defaulted_of_last key hlast (denotes_list h)

theorem denotes_string (s : String) : (Value.string s).Denotes string s :=
  ⟨Value.legible_string s, rfl⟩

theorem denotes_string_child (text : Option String) : ∀ s ∈ text,
    (Value.string s).Denotes string s ∧ (Value.string s).sorted ≠ .null :=
  fun s _ => ⟨denotes_string s, by simp [Value.sorted]⟩

theorem sorted_object_ne_null (ms : List (String × Value)) : (Value.object ms).sorted ≠ .null := by
  simp [Value.sorted]

end AccessPolicy.Json
