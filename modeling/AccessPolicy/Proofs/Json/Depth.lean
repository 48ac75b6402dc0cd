import AccessPolicy.Proofs.Except
import AccessPolicy.Proofs.Json.Record

namespace AccessPolicy.Json

/-- What is decoded from a value of less depth than `n` is written no deeper than the value. -/
def NoDeeper (n : Nat) (encode : α → Value) (decode : Decoder α) : Prop :=
  ∀ v a, v.depth < n → decode v = .ok a → (encode a).depth ≤ v.depth

theorem NoDeeper.mono {m n : Nat} {encode : α → Value} {decode : Decoder α}
    (h : NoDeeper n encode decode) (hle : m ≤ n) : NoDeeper m encode decode :=
  fun v a hv hdecode => h v a (Nat.lt_of_lt_of_le hv hle) hdecode

/-- An alternative that is written like what it holds. -/
theorem NoDeeper.of_map {n : Nat} {encode : α → Value} {decode : Decoder α}
    (h : NoDeeper n encode decode) {v : Value} {f : α → β} {b : β} {encodeAs : β → Value}
    (hv : v.depth < n) (hdecode : (decode v).map f = .ok b)
    (hf : ∀ a, encodeAs (f a) = encode a) : (encodeAs b).depth ≤ v.depth := by
  obtain ⟨a, ha, rfl⟩ := map_eq_ok_iff.1 hdecode
  rw [hf]
  exact h v a hv ha

/-- Whether everything that stands in some fields is less deep than `n`. -/
def FieldsBelow (n : Nat) (ms : List (String × Value)) : Prop :=
  ∀ m ∈ ms, m.2.depth < n

theorem Value.depth_object_le_iff {n : Nat} {ms : List (String × Value)} :
    (Value.object ms).depth ≤ n ↔ 0 < n ∧ FieldsBelow n ms := by
  rw [depth]
  constructor
  · intro h
    refine ⟨by omega, fun m hm => ?_⟩
    exact Nat.lt_of_le_of_lt (depth_le_depthMembers hm) h
  · rintro ⟨hpos, hfields⟩
    have hmembers : depthMembers 0 ms ≤ n - 1 :=
      depthMembers_le_iff.2 fun m hm => Nat.le_sub_one_of_lt (hfields m hm)
    omega

theorem fieldsBelow_iff {n : Nat} {ms : List (String × Value)} :
    FieldsBelow n ms ↔ EachField (fun _ v => v.depth < n) ms :=
  Iff.rfl

@[simp] theorem fieldsBelow_append {n : Nat} {ms ns : List (String × Value)} :
    FieldsBelow n (ms ++ ns) ↔ FieldsBelow n ms ∧ FieldsBelow n ns := by
  simp only [fieldsBelow_iff, eachField_append]

@[simp] theorem fieldsBelow_nil (n : Nat) : FieldsBelow n [] := by
  simp only [fieldsBelow_iff, eachField_nil]

@[simp] theorem fieldsBelow_cons {n : Nat} {key : String} {v : Value}
    {ms : List (String × Value)} :
    FieldsBelow n ((key, v) :: ms) ↔ v.depth < n ∧ FieldsBelow n ms := by
  simp only [fieldsBelow_iff, eachField_cons]

section

variable {n : Nat} (hpos : 0 < n)

include hpos

theorem fieldsBelow_textField (key text : String) : FieldsBelow n (textField key text) := by
  simpa [fieldsBelow_iff, Value.depth] using hpos

theorem fieldsBelow_textField? (key : String) (text : Option String) :
    FieldsBelow n (textField? key text) := by
  simp [fieldsBelow_iff, Value.depth, hpos]

theorem fieldsBelow_flagField (key : String) (flag : Bool) :
    FieldsBelow n (flagField key flag) := by
  simp [fieldsBelow_iff, Value.depth, hpos]

end

theorem fieldsBelow_listField {n : Nat} {key : String} {items : List Value} :
    FieldsBelow n (listField key items) ↔ items ≠ [] → (Value.array items).depth < n := by
  simp only [fieldsBelow_iff, eachField_listField]

theorem fieldsBelow_childField? {n : Nat} {key : String} {encode : α → Value}
    {child : Option α} :
    FieldsBelow n (childField? key encode child) ↔ ∀ a ∈ child, (encode a).depth < n := by
  simp only [fieldsBelow_iff, eachField_childField?]

theorem result_map_eq_ok_iff {p : Partial α} {f : α → β} {b : β} :
    (f <$> p).result = .ok b ↔ ∃ a, p.result = .ok a ∧ f a = b :=
  map_eq_ok_iff

theorem result_seq_eq_ok_iff {p : Partial (α → β)} {q : Partial α} {b : β} :
    (p <*> q).result = .ok b ↔ ∃ f, p.result = .ok f ∧ ∃ a, q.result = .ok a ∧ f a = b := by
  change (p.result.bind fun f => q.result.map f) = .ok b ↔ _
  simp only [bind_eq_ok_iff, map_eq_ok_iff]

namespace Layout

variable {l : Layout}

/-- A record is an object or an array, so it has some depth, and its fields all decode. -/
theorem finish_eq_ok {place : Place} {v : Value} {p : Partial α} {a : α}
    (h : l.finish place v p = .ok a) : 0 < v.depth ∧ p.result = .ok a := by
  unfold finish at h
  split at h
  · refine ⟨Nat.succ_pos _, ?_⟩
    split at h
    · cases h
    · exact h
  · refine ⟨Nat.succ_pos _, ?_⟩
    obtain ⟨b, hresult, h⟩ := bind_eq_ok_iff.1 h
    split at h
    · cases h
    · obtain rfl := Except.ok.inj h
      exact hresult
  · cases h

theorem finishObject_eq_ok {v : Value} {p : Partial α} {a : α}
    (h : l.finishObject v p = .ok a) : 0 < v.depth ∧ p.result = .ok a := by
  unfold finishObject at h
  split at h
  · exact finish_eq_ok h
  · cases h

/-- A field was decoded from a value below the record, or not written. -/
theorem result_field_eq_ok {key : String} {absent : Except DecodeError α} {v : Value}
    {decode : Decoder α} {a : α}
    (h : (l.field key absent v fun c _ => decode c).result = .ok a) :
    absent = .ok a ∨ ∃ c, c.depth < v.depth ∧ decode c = .ok a := by
  unfold field at h
  split at h
  · exact .inl h
  · next c hc =>
    split at h
    · next b hdecode =>
      obtain rfl : b = a := Except.ok.inj h
      exact .inr ⟨c, depth_lt_of_field? hc, hdecode⟩
    · cases h

variable {key : String} {v : Value} {encode : α → Value} {decode : Decoder α}

theorem depth_lt_of_required {a : α} (hdecode : NoDeeper v.depth encode decode)
    (h : (l.required v key decode).result = .ok a) : (encode a).depth < v.depth := by
  obtain habsent | ⟨c, hc, ha⟩ := result_field_eq_ok h
  · cases habsent
  · exact Nat.lt_of_le_of_lt (hdecode c a hc ha) hc

theorem depth_lt_of_optional {child : Option α} (hdecode : NoDeeper v.depth encode decode)
    (h : (l.optional v key decode).result = .ok child) :
    ∀ a ∈ child, (encode a).depth < v.depth := by
  rintro a rfl
  obtain habsent | ⟨c, hc, ha⟩ := result_field_eq_ok h
  · cases habsent
  · -- A null stands for no child, so there is none to be written.
    have hsome : (decode c).map some = .ok (some a) := by
      cases c with
      | null => cases ha
      | _ => exact ha
    obtain ⟨b, hb, hsame⟩ := map_eq_ok_iff.1 hsome
    obtain rfl := Option.some.inj hsame
    exact Nat.lt_of_le_of_lt (hdecode c b hc hb) hc

end Layout

theorem NoDeeper.list {n : Nat} {encode : α → Value} {decode : Decoder α}
    (h : NoDeeper n encode decode) :
    NoDeeper n (fun as => .array (as.map encode)) (Json.list decode) := by
  intro v as hv hdecode
  cases v with
  | array items =>
    rw [list_array] at hdecode
    have hitems : Value.depthItems 0 (as.map encode) ≤ Value.depthItems 0 items := by
      rw [Value.depthItems_le_iff]
      intro w hw
      obtain ⟨a, ha, rfl⟩ := List.mem_map.1 hw
      obtain ⟨i, hi, hitem⟩ := exists_of_mapM_eq_ok hdecode a ha
      have hle := Value.depth_le_depthItems hi
      have hbelow : i.depth < n := Nat.lt_trans (Nat.lt_succ_of_le hle) hv
      exact Nat.le_trans (h i a hbelow hitem) hle
    exact Nat.succ_le_succ hitems
  | _ => cases hdecode

theorem Layout.depth_lt_of_list {l : Layout} {key : String} {v : Value} {encode : α → Value}
    {decode : Decoder α} {as : List α} (hdecode : NoDeeper v.depth encode decode)
    (h : (l.defaulted v key [] (Json.list decode)).result = .ok as) :
    as.map encode ≠ [] → (Value.array (as.map encode)).depth < v.depth := by
  intro hne
  obtain habsent | ⟨c, hc, has⟩ := result_field_eq_ok h
  · obtain rfl : [] = as := Except.ok.inj habsent
    exact absurd rfl hne
  · exact Nat.lt_of_le_of_lt (hdecode.list c as hc has) hc

theorem depth_lt_of_merged {choice : String} {table : List (String × α)} {v : Value}
    {payload : β → Value} {decode : α → Decoder β} {b : β}
    (hdecode : ∀ a, NoDeeper v.depth payload (decode a))
    (h : (merged choice table v decode).result = .ok b) : (payload b).depth < v.depth := by
  unfold merged at h
  split at h
  · next members =>
    split at h
    · next a c hfound =>
      obtain ⟨m, hm, hname⟩ := List.exists_of_findSome?_eq_some hfound
      obtain ⟨a', -, hpair⟩ := Option.map_eq_some_iff.1 hname
      obtain ⟨rfl, rfl⟩ := Prod.mk.inj hpair
      have hbelow := Nat.lt_succ_of_le (Value.depth_le_depthMembers hm)
      exact Nat.lt_of_le_of_lt (hdecode a' m.2 b hbelow h) hbelow
    · cases h
  · cases h

end AccessPolicy.Json
