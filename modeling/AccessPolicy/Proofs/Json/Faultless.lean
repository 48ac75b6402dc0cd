import AccessPolicy.Proofs.Json.Depth

namespace AccessPolicy.Json

/-- Where the fields give a value, none of them is at fault. -/
def Partial.Faultless (p : Partial α) : Prop :=
  ∀ a, p.result = .ok a → p.faults = []

theorem Partial.Faultless.map {p : Partial α} (h : p.Faultless) (f : α → β) :
    (f <$> p).Faultless := by
  intro b hb
  obtain ⟨a, ha, -⟩ := result_map_eq_ok_iff.1 hb
  exact h a ha

theorem Partial.Faultless.seq {p : Partial (α → β)} {q : Partial α} (hp : p.Faultless)
    (hq : q.Faultless) : (p <*> q).Faultless := by
  intro b hb
  obtain ⟨f, hf, a, ha, -⟩ := result_seq_eq_ok_iff.1 hb
  change p.faults ++ q.faults = []
  rw [hp f hf, hq a ha, List.append_nil]

theorem Layout.faultless_field (l : Layout) (key : String) (absent : Except DecodeError α)
    (v : Value) (decode : Decoder α) :
    (l.field key absent v fun c _ => decode c).Faultless := by
  intro a ha
  rw [field_eq] at ha ⊢
  cases hfield : l.field? key v with
  | none => rfl
  | some c =>
    simp only [hfield] at ha ⊢
    cases hdecode : decode c with
    | ok b => rfl
    | error e =>
      rw [hdecode] at ha
      cases ha

theorem Layout.faultless_required (l : Layout) (v : Value) (key : String) (decode : Decoder α) :
    (l.required v key decode).Faultless :=
  l.faultless_field key _ v decode

theorem Layout.faultless_defaulted (l : Layout) (v : Value) (key : String) (default : α)
    (decode : Decoder α) : (l.defaulted v key default decode).Faultless :=
  l.faultless_field key _ v decode

theorem Layout.result_required_eq_ok_iff {l : Layout} {v : Value} {key : String}
    {decode : Decoder α} {a : α} :
    (l.required v key decode).result = .ok a ↔
      ∃ c, l.field? key v = some c ∧ decode c = .ok a := by
  rw [required, field_eq]
  cases l.field? key v with
  | none => simp
  | some c => cases hdecode : decode c <;> simp [Partial.ofField, hdecode]

/-- A field that may be left out gives what is written or else what it is by default. -/
theorem Layout.result_defaulted_eq_ok_iff {l : Layout} {v : Value} {key : String} {default : α}
    {decode : Decoder α} {a : α} :
    (l.defaulted v key default decode).result = .ok a ↔
      ∃ given, Option.Rel (fun c b => decode c = .ok b) (l.field? key v) given ∧
        given.getD default = a := by
  rw [defaulted, field_eq]
  cases l.field? key v with
  | none =>
    constructor
    · intro h
      exact ⟨none, .none, Except.ok.inj h⟩
    · rintro ⟨given, _ | _, rfl⟩
      rfl
  | some c =>
    cases hdecode : decode c with
    | ok b =>
      simp only [hdecode, Partial.ofField, Except.ok.injEq]
      constructor
      · rintro rfl
        exact ⟨some b, .some hdecode, rfl⟩
      · rintro ⟨given, hgiven | _, rfl⟩
        exact Except.ok.inj (hdecode.symm.trans hgiven)
    | error e =>
      simp only [hdecode, Partial.ofField]
      constructor
      · intro h
        cases h
      · rintro ⟨given, hgiven | _, rfl⟩
        cases hdecode.symm.trans hgiven

theorem Layout.result_required_object_eq_ok_iff {l : Layout} {ms : List (String × Value)}
    {key : String} {decode : Decoder α} {a : α} :
    (l.required (.object ms) key decode).result = .ok a ↔
      ∃ c, member? key ms = some c ∧ decode c = .ok a :=
  result_required_eq_ok_iff

theorem Layout.leastFault_eq_none_iff {faults : List (String × DecodeError)} :
    leastFault faults = none ↔ faults = [] := by
  cases faults with
  | nil => simp [leastFault]
  | cons f rest =>
    rw [leastFault]
    split
    · simp
    · split <;> simp

theorem Layout.finishObject_eq_ok_iff {l : Layout} {v : Value} {p : Partial α} {a : α}
    (h : p.Faultless) :
    l.finishObject v p = .ok a ↔ (∃ ms, v = .object ms) ∧ p.result = .ok a := by
  constructor
  · intro hfinish
    refine ⟨?_, (finishObject_eq_ok hfinish).2⟩
    cases v with
    | object ms => exact ⟨ms, rfl⟩
    | _ => cases hfinish
  · rintro ⟨⟨ms, rfl⟩, ha⟩
    rw [finishObject, finish, h a ha]
    exact ha

/-- A record is read from an object, or from an array of no more items than it has fields. -/
theorem Layout.finish_eq_ok_iff {l : Layout} {place : Place} {v : Value} {p : Partial α} {a : α}
    (h : p.Faultless) :
    l.finish place v p = .ok a ↔ p.result = .ok a ∧
      ((∃ ms, v = .object ms) ∨ ∃ items, v = .array items ∧ items.length ≤ l.fields.length) := by
  cases v with
  | object ms =>
    refine ⟨fun hfinish => ⟨(finish_eq_ok hfinish).2, .inl ⟨ms, rfl⟩⟩, fun ⟨ha, _⟩ => ?_⟩
    rw [finish, h a ha]
    exact ha
  | array items =>
    rw [finish, bind_eq_ok_iff]
    constructor
    · rintro ⟨b, hresult, hlength⟩
      split at hlength
      · cases hlength
      · next hle =>
        obtain rfl := Except.ok.inj hlength
        exact ⟨hresult, .inr ⟨items, rfl, Nat.le_of_not_lt hle⟩⟩
    · rintro ⟨hresult, ⟨ms, hobject⟩ | ⟨items', harray, hle⟩⟩
      · cases hobject
      · cases harray
        exact ⟨a, hresult, if_neg (Nat.not_lt.2 hle)⟩
  | _ => simp [finish]

/-- The value is an object that has the fields among its members, or the array of the fields. -/
def Layout.Spells (l : Layout) (v : Value) (cs : List Value) : Prop :=
  (∃ ms, v = .object ms ∧ List.Forall₂ (fun key c => member? key ms = some c) l.fields cs) ∨
    v = .array cs

theorem Layout.spells_iff {l : Layout} {v : Value} {cs : List Value} (hnodup : l.fields.Nodup)
    (hlength : l.fields.length = cs.length) :
    l.Spells v cs ↔ List.Forall₂ (fun key c => l.field? key v = some c) l.fields cs ∧
      ((∃ ms, v = .object ms) ∨ ∃ items, v = .array items ∧ items.length ≤ l.fields.length) := by
  have hposition (items : List Value) :
      List.Forall₂ (fun key c => l.field? key (.array items) = some c) l.fields cs ↔
        ∀ i (h : i < cs.length), items[i]? = some cs[i] := by
    rw [List.forall₂_iff_get]
    simp only [hlength, true_and, List.get_eq_getElem, field?, hnodup.idxOf_getElem]
    exact ⟨fun h i hi => h i hi hi, fun h i hi _ => h i hi⟩
  constructor
  · rintro (⟨ms, rfl, hfields⟩ | rfl)
    · exact ⟨hfields, .inl ⟨ms, rfl⟩⟩
    · exact ⟨(hposition cs).2 fun i hi => List.getElem?_eq_getElem hi,
        .inr ⟨cs, rfl, Nat.le_of_eq hlength.symm⟩⟩
  · rintro ⟨hfields, ⟨ms, rfl⟩ | ⟨items, rfl, hle⟩⟩
    · exact .inl ⟨ms, rfl, hfields⟩
    · right
      have hitems := (hposition items).1 hfields
      congr 1
      refine List.ext_getElem? fun i => ?_
      by_cases hi : i < cs.length
      · rw [hitems i hi, List.getElem?_eq_getElem hi]
      · rw [List.getElem?_eq_none (by omega), List.getElem?_eq_none (by omega)]

theorem string_eq_ok_iff {v : Value} {s : String} : string v = .ok s ↔ v = .string s := by
  cases v <;> simp [string]

theorem word_eq_ok_iff {v : Value} {n : UInt64} : word v = .ok n ↔ v = .number (.natural n) := by
  cases v with
  | number m => cases m <;> simp [word]
  | _ => simp [word]

/-- A name is read as a string or as the key of a null. -/
theorem named_eq_ok_iff {table : List (String × α)} {v : Value} {a : α} :
    named table v = .ok a ↔ ∃ name, pick table name = .ok a ∧
      (v = .string name ∨ v = .object [(name, .null)]) := by
  cases v with
  | string s => simp [named]
  | object ms =>
    rcases ms with _ | ⟨⟨key, payload⟩, _ | ⟨m, ms⟩⟩
    · simp [named]
    · rw [named, bind_eq_ok_iff]
      cases payload <;> simp
    · simp [named]
  | _ => simp [named]

theorem list_eq_ok_iff {item : Decoder α} {v : Value} {as : List α} :
    list item v = .ok as ↔ ∃ items, v = .array items ∧
      List.Forall₂ (fun i a => item i = .ok a) items as := by
  cases v with
  | array items => simp [list_array, mapM_eq_ok_iff]
  | _ => simp [list, listBelow]

end AccessPolicy.Json
