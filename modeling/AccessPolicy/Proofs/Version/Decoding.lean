import AccessPolicy.Proofs.Json.Faultless
import AccessPolicy.Proofs.Version.Normal
import AccessPolicy.Version.Codec

namespace AccessPolicy

open Json

namespace Version

/-- The components as they are written. -/
def componentsValue (cs : List UInt64) : Value :=
  .array (cs.map fun n => .number (.natural n))

theorem list_word_eq_ok_iff {v : Value} {cs : List UInt64} :
    list word v = .ok cs ↔ v = componentsValue cs := by
  simp only [list_eq_ok_iff, word_eq_ok_iff, componentsValue]
  constructor
  · rintro ⟨items, rfl, hitems⟩
    rw [← List.forall₂_map_right_iff, List.forall₂_eq_eq_eq] at hitems
    exact congrArg Value.array hitems
  · rintro rfl
    exact ⟨_, rfl, List.forall₂_map_left_iff.2 (List.forall₂_same.2 fun _ _ => rfl)⟩

/-- A version is decoded from its components, of which there may be none. -/
theorem decode_eq_ok_iff {j : Value} {v : Version} :
    decode j = .ok v ↔ layout.Spells j [componentsValue v.components] := by
  have hfaultless := (layout.faultless_required j "components" (list word)).map Version.mk
  rw [decode, Layout.finish_eq_ok_iff hfaultless, Layout.spells_iff (by decide) rfl]
  simp only [result_map_eq_ok_iff, Layout.result_required_eq_ok_iff, list_word_eq_ok_iff]
  refine and_congr_left fun _ => ⟨?_, ?_⟩
  · rintro ⟨cs, ⟨c, hfield, rfl⟩, rfl⟩
    exact .cons hfield .nil
  · rintro (_ | ⟨hfield, -⟩)
    exact ⟨v.components, ⟨_, hfield, rfl⟩, rfl⟩

theorem decode_encode (v : Version) : decode v.encode = .ok v :=
  decode_eq_ok_iff.2 (.inl ⟨_, rfl, .cons rfl .nil⟩)

/-- The version has a component, and is read back from what it is shown as. -/
structure Sound (v : Version) : Prop where
  nonempty : v.components ≠ []
  restored : parse v.display = .ok v

theorem sound_iff {v : Version} : v.Sound ↔ v.components ≠ [] :=
  ⟨Sound.nonempty, fun h => ⟨h, parse_display h⟩⟩

theorem components_ne_nil_of_new {cs : List UInt64} {v : Version} (h : new cs = .ok v) :
    v.components ≠ [] := by
  unfold new at h
  split at h
  · cases h
  · next hne =>
    obtain rfl := Except.ok.inj h
    exact fun hnil => hne (List.isEmpty_iff.2 hnil)

end Version

namespace PatternPart

theorem decode_encode (part : PatternPart) : decode part.encode = .ok part := by
  cases part <;> rfl

end PatternPart

namespace VersionPattern

/-- A pattern is decoded from a text and from parts, whatever the text says. -/
theorem decode_eq_ok_iff {j : Value} {p : VersionPattern} :
    decode j = .ok p ↔ ∃ items, layout.Spells j [.string p.source, .array items] ∧
      List.Forall₂ (fun i part => PatternPart.decode i = .ok part) items p.parts := by
  have hfaultless := ((layout.faultless_required j "source" string).map VersionPattern.mk).seq
    (layout.faultless_required j "parts" (list PatternPart.decode))
  have hspells (source parts : Value) : layout.Spells j [source, parts] ↔ _ :=
    Layout.spells_iff (by decide) rfl
  rw [decode, Layout.finish_eq_ok_iff hfaultless]
  simp only [hspells, result_seq_eq_ok_iff, result_map_eq_ok_iff, Layout.result_required_eq_ok_iff,
    string_eq_ok_iff, list_eq_ok_iff]
  constructor
  · rintro ⟨⟨_, ⟨source, ⟨_, hsource, rfl⟩, rfl⟩, parts, ⟨_, hparts, items, rfl, hitems⟩, rfl⟩, hform⟩
    exact ⟨items, ⟨.cons hsource (.cons hparts .nil), hform⟩, hitems⟩
  · rintro ⟨items, ⟨hfields, hform⟩, hitems⟩
    obtain _ | ⟨hsource, _ | ⟨hparts, -⟩⟩ := hfields
    exact ⟨⟨_, ⟨p.source, ⟨_, hsource, rfl⟩, rfl⟩, p.parts, ⟨_, hparts, items, rfl, hitems⟩, rfl⟩,
      hform⟩

theorem decode_encode (p : VersionPattern) : decode p.encode = .ok p := by
  refine decode_eq_ok_iff.2 ⟨p.parts.map PatternPart.encode,
    .inl ⟨_, rfl, .cons rfl (.cons rfl .nil)⟩, ?_⟩
  rw [List.forall₂_map_left_iff, List.forall₂_same]
  exact fun part _ => part.decode_encode

/-- The pattern is what its text is read as, so that it accepts what the text selects, and a plus
sign stands last if anywhere. -/
structure Sound (p : VersionPattern) : Prop where
  restored : parse p.source = .ok p
  shown : ∀ v, p.accepts v ↔ Selects (tokens p.display) v
  plus_last : ∀ before after, p.parts = before ++ .anyRest :: after → after = []

/-- A part that stands for any further components is read from a plus sign. -/
theorem eq_nil_of_plus {ts : List (List Char)} {ps before after : List PatternPart}
    (hwellformed : Wellformed ts) (h : List.Forall₂ ReadAs ts ps)
    (hsplit : ps = before ++ .anyRest :: after) : after = [] := by
  rw [hsplit] at h
  have hdrop := List.forall₂_drop_append ts before _ h
  have hjoin := List.take_append_drop before.length ts
  generalize ts.drop before.length = rest at hdrop hjoin
  obtain _ | ⟨hread, hafter⟩ := hdrop
  cases hread with
  | plus =>
    have hadmissible := hwellformed _ _ _ hjoin.symm
    cases hadmissible with
    | plus hlast =>
      rw [List.isEmpty_iff.1 hlast] at hafter
      exact List.forall₂_nil_left_iff.1 hafter
    | numeral h => exact absurd rfl h.ne_plus

theorem sound_iff {p : VersionPattern} : p.Sound ↔ parse p.source = .ok p := by
  refine ⟨Sound.restored, fun h => ⟨h, accepts_iff_selects h, fun before after => ?_⟩⟩
  obtain ⟨-, hwellformed, -, hread⟩ := parse_eq_ok_iff.1 h
  exact eq_nil_of_plus hwellformed hread

theorem sound_iff_readAs {p : VersionPattern} :
    p.Sound ↔ p.source ≠ "" ∧ Wellformed (tokens p.source) ∧
      List.Forall₂ ReadAs (tokens p.source) p.parts := by
  rw [sound_iff, parse_eq_ok_iff]
  simp only [true_and]

/-- Whether versions and patterns are sound, by where they come from. A version that was made of
components, read from a text or put where none is stated is sound, and so is a pattern that was read
from a text or made for such a version. Decoding gives every version and every pattern: a version is
sound unless its components are written as the empty list, and a pattern is sound only if its parts
are what its text is read as. -/
theorem soundness_by_origin (j : Value) (v : Version) (p : VersionPattern) :
    ((∃ cs, Version.new cs = .ok v) ∨ (∃ s, Version.parse s = .ok v) ∨ v = .default → v.Sound) ∧
    ((∃ s, parse s = .ok p) ∨ (∃ u : Version, u.Sound ∧ p = exact u) → p.Sound) ∧
    (Version.decode j = .ok v ↔ Version.layout.Spells j [Version.componentsValue v.components]) ∧
    (Version.decode j = .ok v → (v.Sound ↔ ¬Version.layout.Spells j [.array []])) ∧
    (decode j = .ok p ↔ ∃ items, layout.Spells j [.string p.source, .array items] ∧
      List.Forall₂ (fun i part => PatternPart.decode i = .ok part) items p.parts) ∧
    (p.Sound ↔ p.source ≠ "" ∧ Wellformed (tokens p.source) ∧
      List.Forall₂ ReadAs (tokens p.source) p.parts) ∧
    Version.decode v.encode = .ok v ∧ decode p.encode = .ok p := by
  refine ⟨fun hv => Version.sound_iff.2 ?_, fun hp => sound_iff.2 ?_,
    Version.decode_eq_ok_iff, fun hv => ?_, decode_eq_ok_iff, sound_iff_readAs,
    Version.decode_encode v, decode_encode p⟩
  · obtain ⟨cs, hnew⟩ | ⟨s, hparse⟩ | rfl := hv
    · exact Version.components_ne_nil_of_new hnew
    · exact Version.components_ne_nil_of_parse hparse
    · exact List.cons_ne_nil 1 [0]
  · obtain ⟨s, hparse⟩ | ⟨u, hsound, rfl⟩ := hp
    · obtain ⟨-, -, hsource, -⟩ := parse_eq_ok_iff.1 hparse
      rwa [hsource]
    · exact parse_display hsound.nonempty
  · rw [Version.sound_iff, not_iff_not]
    constructor
    · intro hnil
      have hspells := Version.decode_eq_ok_iff.1 hv
      rwa [hnil] at hspells
    · intro hspells
      have hempty : Version.decode j = .ok ⟨[]⟩ := Version.decode_eq_ok_iff.2 hspells
      rw [hv] at hempty
      exact congrArg Version.components (Except.ok.inj hempty)

/-- A pattern with a plus sign behind padded numbers, and the version that is taken where none is
stated, which may be decoded from its components alone. -/
theorem soundness_by_origin_default :
    Sound ⟨"007.+", [.exact 7, .anyRest]⟩ ∧ Version.default.Sound ∧
      Version.decode (.array [.array [.number (.natural 1), .number (.natural 0)]]) =
        .ok .default := by
  obtain ⟨hversion, hpattern, hdecode, -⟩ := soundness_by_origin
    (.array [.array [.number (.natural 1), .number (.natural 0)]]) .default
    ⟨"007.+", [.exact 7, .anyRest]⟩
  have hparse : parse "007.+" = .ok ⟨"007.+", [.exact 7, .anyRest]⟩ := by decide +kernel
  exact ⟨hpattern (.inl ⟨_, hparse⟩), hversion (.inr (.inr rfl)), hdecode.2 (.inr rfl)⟩

/-- An object without components is decoded as a version that cannot be read back, and a pattern
with a plus sign in front may go with the text of a version that it does not stand for. -/
theorem decoded_unsound :
    (∃ v, Version.decode (.object [("components", .array [])]) = .ok v ∧ v.components = [] ∧
      Version.parse v.display = .error (.invalidFormat "") ∧ ¬v.Sound) ∧
    ∃ p, decode (.object [("parts", .array [.string "AnyRest", .string "AnyOne"]),
        ("source", .string "1.0")]) = .ok p ∧ p.parts = [.anyRest, .anyOne] ∧ p.display = "1.0" ∧
      p.accepts ⟨[2, 5]⟩ ∧ parse p.source ≠ .ok p ∧ ¬p.Sound := by
  have hversion : Version.decode (.object [("components", .array [])]) = .ok ⟨[]⟩ := rfl
  have hpattern : decode (.object [("parts", .array [.string "AnyRest", .string "AnyOne"]),
      ("source", .string "1.0")]) = .ok ⟨"1.0", [.anyRest, .anyOne]⟩ := rfl
  have hparse : parse "1.0" ≠ .ok ⟨"1.0", [.anyRest, .anyOne]⟩ := by decide +kernel
  exact ⟨⟨_, hversion, rfl, rfl, fun h => h.nonempty rfl⟩,
    _, hpattern, rfl, rfl, rfl, hparse, fun h => hparse h.restored⟩

end VersionPattern

end AccessPolicy
