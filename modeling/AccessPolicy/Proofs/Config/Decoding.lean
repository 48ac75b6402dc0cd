import AccessPolicy.Config.File
import AccessPolicy.Proofs.Json.Faultless

namespace AccessPolicy

open Json ConfigReader

namespace Setting

/-- A setting is found under a name that no other setting has. -/
theorem find?_all_eq_some_iff {name : Setting → String} (hname : Function.Injective name)
    {key : String} {s : Setting} : (all.find? fun t => name t = key) = some s ↔ key = name s := by
  constructor
  · intro h
    have hfound := List.find?_some (p := fun t : Setting => decide (name t = key)) h
    exact (of_decide_eq_true hfound).symm
  · rintro rfl
    simp only [hname.eq_iff]
    cases s <;> decide

theorem field_injective : Function.Injective field := by
  intro s t h
  cases s <;> cases t <;> first | rfl | exact absurd h (by decide)

theorem ofField?_eq_some_iff {key : String} {s : Setting} :
    ofField? key = some s ↔ key = s.field :=
  find?_all_eq_some_iff field_injective

theorem mem_fields_iff {key : String} :
    key ∈ FactoryConfig.fields ↔ ∃ s : Setting, key = s.field := by
  constructor
  · intro h
    obtain ⟨s, -, rfl⟩ := List.mem_map.1 h
    exact ⟨s, rfl⟩
  · rintro ⟨s, rfl⟩
    cases s <;> decide

end Setting

namespace ConfigReader.Draft

/-- Whether the draft has for a setting what the given value decodes to, or nothing if no value is
given. -/
def Gets (d : Draft) : Setting → Option Value → Prop
  | .constructor, given => Option.Rel (fun v a => string v = .ok a) given d.constructor
  | .resolution, given => Option.Rel (fun v a => ResolutionMode.decode v = .ok a) given d.resolution
  | .maxDocumentBytes, given => Option.Rel (fun v a => word v = .ok a) given d.maxDocumentBytes

theorem isSome_eq_of_rel {r : α → β → Prop} {a? : Option α} {b? : Option β}
    (h : Option.Rel r a? b?) : b?.isSome = a?.isSome := by
  cases h <;> rfl

theorem Gets.has {d : Draft} {s : Setting} {given : Option Value} (h : d.Gets s given) :
    d.has s = given.isSome := by
  cases s <;> exact isSome_eq_of_rel h

end ConfigReader.Draft

namespace FactoryConfig

/-- Whether a value has a form in which settings can be given. -/
def Fits : Value → Prop
  | .object members => ∀ m ∈ members, ∃ s : Setting, m.1 = s.field
  | .array items => items.length ≤ Setting.all.length
  | _ => False

theorem strangers_eq_nil_iff {members : List (String × Value)} :
    strangers (.object members) = [] ↔ Fits (.object members) := by
  simp only [strangers, List.map_eq_nil_iff, List.filter_eq_nil_iff, Fits, ← Setting.mem_fields_iff]
  simp

/-- What the settings amount to if no member is a stranger. -/
def settings (v : Value) : Partial FactoryConfig :=
  FactoryConfig.mk <$>
    layout.defaulted v "constructor" default.constructor string <*>
    layout.defaulted v "resolution" default.resolution ResolutionMode.decode <*>
    layout.defaulted v "max_document_bytes" default.maxDocumentBytes word

theorem decode_eq (v : Value) :
    decode v = layout.finish .standing v
      { settings v with faults := strangers v ++ (settings v).faults } := rfl

theorem faultless_settings (v : Value) : (settings v).Faultless :=
  (((layout.faultless_defaulted v _ _ _).map _).seq (layout.faultless_defaulted v _ _ _)).seq
    (layout.faultless_defaulted v _ _ _)

theorem result_settings_eq_ok_iff {v : Value} {c : FactoryConfig} :
    (settings v).result = .ok c ↔
      ∃ d : Draft, (∀ s, d.Gets s (layout.field? s.field v)) ∧ d.toConfig = c := by
  simp only [settings, result_seq_eq_ok_iff, result_map_eq_ok_iff,
    Layout.result_defaulted_eq_ok_iff]
  constructor
  · rintro ⟨_, ⟨_, ⟨_, ⟨constructor?, hconstructor, rfl⟩, rfl⟩, _, ⟨resolution?, hresolution, rfl⟩,
      rfl⟩, _, ⟨bytes?, hbytes, rfl⟩, rfl⟩
    refine ⟨⟨constructor?, resolution?, bytes?⟩, fun s => ?_, rfl⟩
    cases s with
    | constructor => exact hconstructor
    | resolution => exact hresolution
    | maxDocumentBytes => exact hbytes
  · rintro ⟨d, hgets, rfl⟩
    exact ⟨_, ⟨_, ⟨_, ⟨d.constructor, hgets .constructor, rfl⟩, rfl⟩, _,
      ⟨d.resolution, hgets .resolution, rfl⟩, rfl⟩, _,
      ⟨d.maxDocumentBytes, hgets .maxDocumentBytes, rfl⟩, rfl⟩

/-- A configuration is decoded from settings alone, each given at most once. -/
theorem decode_eq_ok_iff {v : Value} {c : FactoryConfig} :
    decode v = .ok c ↔
      Fits v ∧ ∃ d : Draft, (∀ s, d.Gets s (layout.field? s.field v)) ∧ d.toConfig = c := by
  rw [decode_eq, ← result_settings_eq_ok_iff]
  cases v with
  | object members =>
    by_cases hstrangers : strangers (.object members) = []
    · rw [hstrangers, List.nil_append, Layout.finish_eq_ok_iff (faultless_settings _)]
      have hfits := strangers_eq_nil_iff.1 hstrangers
      exact ⟨fun h => ⟨hfits, h.1⟩, fun h => ⟨h.2, .inl ⟨members, rfl⟩⟩⟩
    · have hfits := mt strangers_eq_nil_iff.2 hstrangers
      refine ⟨fun h => ?_, fun h => absurd h.1 hfits⟩
      rw [Layout.finish] at h
      split at h
      · cases h
      · next hnone =>
        rw [Layout.leastFault_eq_none_iff, List.append_eq_nil_iff] at hnone
        exact absurd hnone.1 hstrangers
  | array items =>
    have hfaults : strangers (.array items) ++ (settings (.array items)).faults =
      (settings (.array items)).faults := rfl
    rw [hfaults, Layout.finish_eq_ok_iff (faultless_settings _)]
    constructor
    · rintro ⟨hresult, ⟨_, hobject⟩ | ⟨_, harray, hle⟩⟩
      · cases hobject
      · cases harray
        exact ⟨hle, hresult⟩
    · rintro ⟨hle, hresult⟩
      exact ⟨hresult, .inr ⟨items, rfl, hle⟩⟩
  | _ => simp [Layout.finish, Fits]

end FactoryConfig

end AccessPolicy
