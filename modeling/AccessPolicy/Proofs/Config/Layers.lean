import AccessPolicy.Proofs.Config.Agreement
import AccessPolicy.Proofs.Config.Overrides
import AccessPolicy.Proofs.Factory.Registry

namespace AccessPolicy

open Json ConfigReader

namespace FactoryConfig

/-- Variables that override no setting may be left out. -/
theorem withOverrides_filter (c : FactoryConfig) (assignments : List (String × String)) :
    c.withOverrides (assignments.filter fun a => a.1 ∈ Setting.all.map Setting.variableName) =
      c.withOverrides assignments := by
  have hignored : (fun (c : FactoryConfig) (a : String × String) =>
      if decide (a.1 ∈ Setting.all.map Setting.variableName) then c.override a else pure c) =
      override := by
    funext c a
    split
    · rfl
    · next hnot =>
      have hnone : Setting.ofVariable? a.1 = none := by
        rw [Setting.ofVariable?_eq_none_iff]
        rintro s hs
        refine hnot (decide_eq_true (List.mem_map.2 ⟨s, ?_, hs.symm⟩))
        cases s <;> decide
      rw [override, hnone]
      rfl
  rw [withOverrides, withOverrides, List.foldlM_filter, hignored]

/-- Only the values of each setting matter, in their order. -/
theorem withOverrides_eq_ok_congr {c d : FactoryConfig} {as bs : List (String × String)}
    (h : ∀ s, valuesIn as s = valuesIn bs s) :
    c.withOverrides as = .ok d ↔ c.withOverrides bs = .ok d := by
  have hvalues : valuesIn as = valuesIn bs := funext h
  rw [withOverrides_eq_ok_iff, withOverrides_eq_ok_iff, hvalues]

theorem existsUnique_layered {assignments : List (String × String)}
    (h : AllReadable (valuesIn assignments)) (c : FactoryConfig) :
    ∃! d, Layered (valuesIn assignments) c d := by
  obtain ⟨d, hd⟩ := exists_foldlM_eq_ok h c
  have hlayered := (layered_of_foldlM hd).2
  exact ⟨d, hlayered, fun e he => he.eq hlayered⟩

/-- Each setting is looked up once, under its own name. -/
theorem valuesIn_filterMap {settings : List Setting} (hnodup : settings.Nodup)
    (environment : List (String × String)) (s : Setting) :
    valuesIn (settings.filterMap fun t =>
        (environment.lookup t.variableName).map fun value => (t.variableName, value)) s =
      if s ∈ settings then (environment.lookup s.variableName).toList else [] := by
  induction settings with
  | nil => rfl
  | cons t rest ih =>
    obtain ⟨hfresh, hrest⟩ := List.nodup_cons.1 hnodup
    have hlater := ih hrest
    by_cases hs : s = t
    · subst hs
      rw [if_neg hfresh] at hlater
      rw [List.filterMap_cons, if_pos List.mem_cons_self]
      cases environment.lookup s.variableName with
      | none => exact hlater
      | some text =>
        rw [Option.map_some, valuesIn_cons, if_pos rfl, hlater]
        rfl
    · rw [List.filterMap_cons]
      simp only [List.mem_cons, hs, false_or]
      cases environment.lookup t.variableName with
      | none => exact hlater
      | some text =>
        rw [Option.map_some, valuesIn_cons, if_neg (Setting.variableName_injective.ne (Ne.symm hs))]
        exact hlater

theorem valuesIn_overridesOf (environment : List (String × String)) (s : Setting) :
    valuesIn (overridesOf environment) s = (environment.lookup s.variableName).toList := by
  have hall : s ∈ Setting.all := by cases s <;> decide
  rw [overridesOf, valuesIn_filterMap (by decide), if_pos hall]

/-- Whether the settings of the draft are given: by a text that can be read, in which they are
valid, or none of them where there is no file. -/
def Given : Option (String × Except IoError (List UInt8)) → Draft → Prop
  | none, d => d = .empty
  | some (_, content), d => ∃ (bytes : List UInt8) (cs : List Char) (v : Value),
    content = .ok bytes ∧ Text.Utf8.decode bytes = (cs, []) ∧ v.SpelledBy cs ∧ d.FilledBy v ∧
      d.toConfig.Valid

theorem ofFile_eq_ok_iff_given {path : String} {content : Except IoError (List UInt8)}
    {c : FactoryConfig} :
    ofFile path content = .ok c ↔ ∃ d, Given (some (path, content)) d ∧ d.toConfig = c := by
  constructor
  · intro h
    cases content with
    | error e => cases h
    | ok bytes =>
      rcases hbytes : Text.Utf8.decode bytes with ⟨cs, _ | ⟨b, rest⟩⟩
      · obtain ⟨hread, hvalid⟩ := (ofFile_eq_ok_iff hbytes).1 h
        obtain ⟨v, d, hspells, hfilled, rfl⟩ := ConfigReader.read_eq_ok_iff.1 hread
        exact ⟨d, ⟨bytes, cs, v, rfl, hbytes, hspells, hfilled, validate_eq_ok_iff.1 hvalid⟩, rfl⟩
      · simp [ofFile, hbytes] at h
  · rintro ⟨d, ⟨bytes, cs, v, rfl, hbytes, hspells, hfilled, hvalid⟩, rfl⟩
    exact (ofFile_eq_ok_iff hbytes).2
      ⟨ConfigReader.read_eq_ok_iff.2 ⟨v, d, hspells, hfilled, rfl⟩, validate_eq_ok_iff.2 hvalid⟩

/-- What is loaded has each setting from the environment, from the file or by default. -/
theorem load_eq_ok_iff {file : Option (String × Except IoError (List UInt8))}
    {environment : List (String × String)} {c : FactoryConfig} :
    load file environment = .ok c ↔ ∃ d, Given file d ∧
      AllReadable (fun s => (environment.lookup s.variableName).toList) ∧
      Layered (fun s => (environment.lookup s.variableName).toList) d.toConfig c ∧ c.Valid := by
  have hvalues : valuesIn (overridesOf environment) = fun s =>
      (environment.lookup s.variableName).toList := funext (valuesIn_overridesOf environment)
  rw [← hvalues]
  simp only [← withOverrides_eq_ok_iff]
  cases file with
  | none =>
    constructor
    · intro h
      exact ⟨.empty, rfl, h⟩
    · rintro ⟨d, rfl, h⟩
      exact h
  | some file =>
    obtain ⟨path, content⟩ := file
    constructor
    · intro h
      obtain ⟨base, hbase, h⟩ := bind_eq_ok_iff.1 h
      obtain ⟨d, hgiven, rfl⟩ := ofFile_eq_ok_iff_given.1 hbase
      exact ⟨d, hgiven, h⟩
    · rintro ⟨d, hgiven, h⟩
      exact bind_eq_ok_iff.2 ⟨d.toConfig, ofFile_eq_ok_iff_given.2 ⟨d, hgiven, rfl⟩, h⟩

end FactoryConfig

namespace Factory

variable {R X σ : Type} [DecidableEq R]

theorem ofConfig_eq_ok_iff {sur : Surroundings R X σ} {c : FactoryConfig} {f : Factory R X σ} :
    ofConfig sur c = .ok f ↔ c.Valid ∧ c.constructor = standardName ∧
      f = ⟨.withStandard sur (.ofConfig c), (StandardConstructor.ofConfig c).toConstructor sur⟩ := by
  rw [← FactoryConfig.validate_eq_ok_iff]
  constructor
  · intro h
    obtain ⟨_, hvalid, -⟩ := bind_eq_ok_iff.1 h
    have hactive := active_of_ofConfig h
    obtain ⟨k, hget, rfl⟩ := withCatalog_eq_ok_iff.1 (withCatalog_of_ofConfig h)
    have hname := congrArg Prod.fst (List.mem_singleton.1 (Catalog.mem_of_get hget))
    obtain rfl : k = _ := hactive
    exact ⟨mapError_eq_ok_iff.1 hvalid, hname, rfl⟩
  · rintro ⟨hvalid, hname, rfl⟩
    have hget : Catalog.get (.withStandard sur (.ofConfig c)) c.constructor =
        .ok ((StandardConstructor.ofConfig c).toConstructor sur) := by
      rw [hname]
      rfl
    exact bind_eq_ok_iff.2 ⟨(), mapError_eq_ok_iff.2 hvalid,
      mapError_eq_ok_iff.2 (withCatalog_eq_ok_iff.2 ⟨_, hget, rfl⟩)⟩

end Factory

namespace FactoryConfig

/-- Overriding succeeds exactly if every value of a setting can be read, also one that another takes
the place of, and if what they come to is valid; then each setting has its last value, or else what
it had. Other variables, and the order of values for different settings, make no difference. A
configuration that is loaded has each setting from the environment if it is set there, else from the
file, else by default, unless the file alone is refused. The standard constructor is set up with the
mode and the limit of its configuration. -/
theorem layers_combine_by_setting {R X σ : Type} [DecidableEq R] (sur : Surroundings R X σ)
    (base : FactoryConfig) (assignments : List (String × String)) :
    (∀ c, base.withOverrides assignments = .ok c ↔
      AllReadable (valuesIn assignments) ∧ Layered (valuesIn assignments) base c ∧ c.Valid) ∧
    (AllReadable (valuesIn assignments) → ∃! c, Layered (valuesIn assignments) base c) ∧
    base.withOverrides (assignments.filter fun a => a.1 ∈ Setting.all.map Setting.variableName) =
      base.withOverrides assignments ∧
    (∀ others, (∀ s, valuesIn others s = valuesIn assignments s) → ∀ c,
      base.withOverrides others = .ok c ↔ base.withOverrides assignments = .ok c) ∧
    (∀ file environment c, load file environment = .ok c ↔ ∃ d, Given file d ∧
      AllReadable (fun s => (environment.lookup s.variableName).toList) ∧
      Layered (fun s => (environment.lookup s.variableName).toList) d.toConfig c ∧ c.Valid) ∧
    (∀ path content environment e, ofFile path content = .error e →
      load (some (path, content)) environment = .error e) ∧
    ∀ f, Factory.ofConfig sur base = .ok f ↔ base.Valid ∧ base.constructor = standardName ∧
      f = ⟨.withStandard sur ⟨base.resolution, base.maxDocumentBytes⟩,
        StandardConstructor.toConstructor ⟨base.resolution, base.maxDocumentBytes⟩ sur⟩ := by
  refine ⟨fun c => withOverrides_eq_ok_iff, fun h => existsUnique_layered h base,
    base.withOverrides_filter assignments, fun others h c => withOverrides_eq_ok_congr h,
    fun file environment c => load_eq_ok_iff, fun path content environment e h => ?_,
    fun f => Factory.ofConfig_eq_ok_iff⟩
  exact bind_eq_error_iff.2 (.inl h)

example : default.withOverrides [("XACML_FACTORY_MAX_DOCUMENT_BYTES", "0"), ("PATH", "/usr/bin"),
    ("XACML_FACTORY_MAX_DOCUMENT_BYTES", " +2048 ")] =
      .ok { default with maxDocumentBytes := 2048 } := by decide +kernel

end FactoryConfig

end AccessPolicy
