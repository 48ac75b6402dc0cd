import AccessPolicy.Proofs.Config.Decoding
import AccessPolicy.Proofs.Text.Numeral

namespace AccessPolicy

/-- Whether the text is the name of the mode, but for blanks around it and the case of letters. -/
def ResolutionMode.NamedBy (m : ResolutionMode) (text : String) : Prop :=
  (Text.trim text).map Char.toLower = m.name

theorem ResolutionMode.parse_eq_ok_iff {text : String} {m : ResolutionMode} :
    parse text = .ok m ↔ m.NamedBy text := by
  have hlookup : table.lookup ((Text.trim text).map Char.toLower) = some m ↔ m.NamedBy text := by
    rw [NamedBy, table]
    generalize (Text.trim text).map Char.toLower = word
    constructor
    · intro h
      obtain ⟨other, -, hentry⟩ := List.mem_map.1 (Json.mem_of_lookup h)
      obtain ⟨rfl, rfl⟩ := Prod.mk.inj hentry
      rfl
    · rintro rfl
      cases m <;> decide
  rw [← hlookup, parse]
  cases table.lookup ((Text.trim text).map Char.toLower) <;> simp

/-- Whether the text is a numeral of the word, but for blanks around it and a plus sign in front. -/
def Text.Counts (text : String) (n : UInt64) : Prop :=
  ∃ sign cs, (trim text).toList = sign ++ cs ∧ (sign = [] ∨ sign = ['+']) ∧
    IsNumeral cs ∧ value cs = n.toNat

theorem Text.signedWord?_eq_some_iff {cs : List Char} {n : UInt64} :
    signedWord? cs = some n ↔ ∃ sign ds, cs = sign ++ ds ∧ (sign = [] ∨ sign = ['+']) ∧
      IsNumeral ds ∧ value ds = n.toNat := by
  unfold signedWord?
  split
  · next ds =>
    rw [word?_eq_some_iff]
    constructor
    · intro h
      exact ⟨['+'], ds, rfl, .inr rfl, h⟩
    · rintro ⟨sign, es, hsplit, rfl | rfl, hnumeral, hvalue⟩
      · -- A plus sign is no digit.
        obtain rfl : '+' :: ds = es := hsplit
        exact absurd (hnumeral.digits '+' List.mem_cons_self) (by decide)
      · obtain rfl : ds = es := (List.cons.inj hsplit).2
        exact ⟨hnumeral, hvalue⟩
  · next _ hplain =>
    rw [word?_eq_some_iff]
    constructor
    · intro h
      exact ⟨[], cs, rfl, .inl rfl, h⟩
    · rintro ⟨sign, es, hsplit, rfl | rfl, hnumeral⟩
      · obtain rfl : cs = es := hsplit
        exact hnumeral
      · exact absurd hsplit (hplain es)

namespace FactoryConfig

theorem parseByteCount_eq_ok_iff {text : String} {n : UInt64} :
    parseByteCount text = .ok n ↔ Text.Counts text n := by
  rw [Text.Counts, ← Text.signedWord?_eq_some_iff, parseByteCount]
  cases Text.signedWord? (Text.trim text).toList <;> simp

/-- Whether the text is a value of the setting. -/
def Readable : Setting → String → Prop
  | .constructor, _ => True
  | .resolution, text => ∃ m : ResolutionMode, m.NamedBy text
  | .maxDocumentBytes, text => ∃ n, Text.Counts text n

/-- Whether the setting is what the text says. -/
def SetTo (c : FactoryConfig) : Setting → String → Prop
  | .constructor, text => c.constructor = Text.trim text
  | .resolution, text => c.resolution.NamedBy text
  | .maxDocumentBytes, text => Text.Counts text c.maxDocumentBytes

/-- Whether the setting is the same in both configurations. -/
def SameIn (s : Setting) (c d : FactoryConfig) : Prop :=
  match s with
  | .constructor => c.constructor = d.constructor
  | .resolution => c.resolution = d.resolution
  | .maxDocumentBytes => c.maxDocumentBytes = d.maxDocumentBytes

theorem SameIn.refl (s : Setting) (c : FactoryConfig) : SameIn s c c := by
  cases s <;> rfl

theorem SameIn.symm {s : Setting} {c d : FactoryConfig} (h : SameIn s c d) : SameIn s d c := by
  cases s <;> exact Eq.symm h

theorem SameIn.trans {s : Setting} {c d e : FactoryConfig} (hcd : SameIn s c d)
    (hde : SameIn s d e) : SameIn s c e := by
  cases s <;> exact Eq.trans hcd hde

theorem eq_of_sameIn {c d : FactoryConfig} (h : ∀ s, SameIn s c d) : c = d := by
  obtain ⟨constructor, resolution, bytes⟩ := c
  obtain rfl := h .constructor
  obtain rfl := h .resolution
  obtain rfl := h .maxDocumentBytes
  rfl

theorem SetTo.sameIn {c d : FactoryConfig} {s : Setting} {text : String} (hc : c.SetTo s text)
    (hd : d.SetTo s text) : SameIn s c d := by
  cases s with
  | constructor => exact Eq.trans hc (Eq.symm hd)
  | resolution =>
    have hparse := ResolutionMode.parse_eq_ok_iff.2 hc
    exact Except.ok.inj (hparse.symm.trans (ResolutionMode.parse_eq_ok_iff.2 hd))
  | maxDocumentBytes =>
    have hparse := parseByteCount_eq_ok_iff.2 hc
    exact Except.ok.inj (hparse.symm.trans (parseByteCount_eq_ok_iff.2 hd))

theorem SetTo.of_sameIn {c d : FactoryConfig} {s : Setting} {text : String} (hc : c.SetTo s text)
    (h : SameIn s c d) : d.SetTo s text := by
  obtain ⟨constructor, resolution, bytes⟩ := c
  cases s <;> obtain rfl := h <;> exact hc

theorem SetTo.readable {c : FactoryConfig} {s : Setting} {text : String} (h : c.SetTo s text) :
    Readable s text := by
  cases s with
  | constructor => trivial
  | resolution => exact ⟨_, h⟩
  | maxDocumentBytes => exact ⟨_, h⟩

/-- A setting is set to what the text says, and the others stay as they are. -/
theorem set_eq_ok {c d : FactoryConfig} {s : Setting} {text : String} (h : c.set s text = .ok d) :
    d.SetTo s text ∧ ∀ t ≠ s, SameIn t c d := by
  cases s with
  | constructor =>
    obtain rfl := Except.ok.inj h
    exact ⟨rfl, fun t ht => by cases t <;> first | exact absurd rfl ht | rfl⟩
  | resolution =>
    obtain ⟨m, hm, rfl⟩ := map_eq_ok_iff.1 h
    exact ⟨ResolutionMode.parse_eq_ok_iff.1 hm,
      fun t ht => by cases t <;> first | exact absurd rfl ht | rfl⟩
  | maxDocumentBytes =>
    obtain ⟨n, hn, rfl⟩ := map_eq_ok_iff.1 h
    exact ⟨parseByteCount_eq_ok_iff.1 hn,
      fun t ht => by cases t <;> first | exact absurd rfl ht | rfl⟩

theorem exists_set_eq_ok {s : Setting} {text : String} (h : Readable s text) (c : FactoryConfig) :
    ∃ d, c.set s text = .ok d := by
  cases s with
  | constructor => exact ⟨_, rfl⟩
  | resolution =>
    obtain ⟨m, hm⟩ := h
    exact ⟨_, map_eq_ok_iff.2 ⟨m, ResolutionMode.parse_eq_ok_iff.2 hm, rfl⟩⟩
  | maxDocumentBytes =>
    obtain ⟨n, hn⟩ := h
    exact ⟨_, map_eq_ok_iff.2 ⟨n, parseByteCount_eq_ok_iff.2 hn, rfl⟩⟩

end FactoryConfig

namespace Setting

theorem variableName_injective : Function.Injective variableName := by
  intro s t h
  cases s <;> cases t <;> first | rfl | exact absurd h (by decide)

theorem ofVariable?_eq_some_iff {key : String} {s : Setting} :
    ofVariable? key = some s ↔ key = s.variableName :=
  find?_all_eq_some_iff variableName_injective

theorem ofVariable?_eq_none_iff {key : String} :
    ofVariable? key = none ↔ ∀ s : Setting, key ≠ s.variableName := by
  constructor
  · rintro h s rfl
    cases h.symm.trans (ofVariable?_eq_some_iff.2 rfl)
  · intro h
    cases hkey : ofVariable? key with
    | none => rfl
    | some s => exact absurd (ofVariable?_eq_some_iff.1 hkey) (h s)

end Setting

namespace FactoryConfig

/-- The values that are given for a setting, in their order. -/
def valuesIn (assignments : List (String × String)) (s : Setting) : List String :=
  (assignments.filter fun a => a.1 = s.variableName).map Prod.snd

theorem valuesIn_cons (a : String × String) (assignments : List (String × String)) (s : Setting) :
    valuesIn (a :: assignments) s =
      if a.1 = s.variableName then a.2 :: valuesIn assignments s else valuesIn assignments s := by
  by_cases h : a.1 = s.variableName <;> simp [valuesIn, h]

/-- Whether each setting is what the last of its values says, or else what it was before. -/
def Layered (values : Setting → List String) (c d : FactoryConfig) : Prop :=
  ∀ s, match (values s).getLast? with
    | some text => d.SetTo s text
    | none => SameIn s c d

theorem Layered.eq {values : Setting → List String} {c d e : FactoryConfig}
    (hd : Layered values c d) (he : Layered values c e) : d = e := by
  refine eq_of_sameIn fun s => ?_
  have hds := hd s
  have hes := he s
  cases hlast : (values s).getLast? with
  | none =>
    rw [hlast] at hds hes
    exact SameIn.trans (SameIn.symm hds) hes
  | some text =>
    rw [hlast] at hds hes
    exact hds.sameIn hes

/-- What one override does is what its value does to the setting that it is for. -/
theorem override_eq_ok {c d : FactoryConfig} {a : String × String} (h : c.override a = .ok d) :
    ∀ s : Setting, if a.1 = s.variableName then d.SetTo s a.2 else SameIn s c d := by
  intro s
  unfold override at h
  split at h
  · next t ht =>
    have hkey := Setting.ofVariable?_eq_some_iff.1 ht
    obtain ⟨hset, hothers⟩ := set_eq_ok h
    by_cases hs : s = t
    · subst hs
      rw [if_pos hkey]
      exact hset
    · rw [hkey, if_neg (Setting.variableName_injective.ne (Ne.symm hs))]
      exact hothers s hs
  · next hnone =>
    obtain rfl := Except.ok.inj h
    rw [if_neg (Setting.ofVariable?_eq_none_iff.1 hnone s)]
    exact SameIn.refl s c

theorem exists_override_eq_ok {a : String × String}
    (h : ∀ s : Setting, a.1 = s.variableName → Readable s a.2) (c : FactoryConfig) :
    ∃ d, c.override a = .ok d := by
  unfold override
  split
  · next s hs => exact exists_set_eq_ok (h s (Setting.ofVariable?_eq_some_iff.1 hs)) c
  · exact ⟨c, rfl⟩

/-- Whether every value that is given for a setting can be read. -/
def AllReadable (values : Setting → List String) : Prop :=
  ∀ s, ∀ text ∈ values s, Readable s text

theorem allReadable_cons {a : String × String} {rest : List (String × String)} :
    AllReadable (valuesIn (a :: rest)) ↔
      (∀ s : Setting, a.1 = s.variableName → Readable s a.2) ∧ AllReadable (valuesIn rest) := by
  rw [AllReadable, AllReadable, ← forall_and]
  refine forall_congr' fun s => ?_
  rw [valuesIn_cons]
  split
  · next hkey => simp [hkey]
  · next hkey => simp [hkey]

theorem Layered.cons {a : String × String} {rest : List (String × String)} {b c d : FactoryConfig}
    (hstep : ∀ s : Setting, if a.1 = s.variableName then b.SetTo s a.2 else SameIn s c b)
    (h : Layered (valuesIn rest) b d) : Layered (valuesIn (a :: rest)) c d := by
  intro s
  have hfirst := hstep s
  have hlater := h s
  rw [valuesIn_cons]
  split at hfirst
  · next hkey =>
    rw [if_pos hkey, List.getLast?_cons]
    cases hlast : (valuesIn rest s).getLast? with
    | none =>
      rw [hlast] at hlater
      exact hfirst.of_sameIn hlater
    | some text =>
      rw [hlast] at hlater
      exact hlater
  · next hkey =>
    rw [if_neg hkey]
    cases hlast : (valuesIn rest s).getLast? with
    | none =>
      rw [hlast] at hlater
      exact SameIn.trans hfirst hlater
    | some text =>
      rw [hlast] at hlater
      exact hlater

/-- Overriding succeeds only on values that can be read, also where a later one takes their place,
and leaves each setting with the last of its values. -/
theorem layered_of_foldlM {assignments : List (String × String)} {c d : FactoryConfig}
    (h : assignments.foldlM override c = .ok d) :
    AllReadable (valuesIn assignments) ∧ Layered (valuesIn assignments) c d := by
  induction assignments generalizing c with
  | nil =>
    obtain rfl : c = d := Except.ok.inj h
    exact ⟨fun s => List.forall_mem_nil _, fun s => SameIn.refl s c⟩
  | cons a rest ih =>
    rw [List.foldlM_cons] at h
    obtain ⟨b, hfirst, hrest⟩ := bind_eq_ok_iff.1 h
    obtain ⟨hreadable, hlayered⟩ := ih hrest
    have hstep := override_eq_ok hfirst
    refine ⟨allReadable_cons.2 ⟨fun s hs => ?_, hreadable⟩, hlayered.cons hstep⟩
    have hset := hstep s
    rw [if_pos hs] at hset
    exact hset.readable

theorem exists_foldlM_eq_ok {assignments : List (String × String)}
    (h : AllReadable (valuesIn assignments)) (c : FactoryConfig) :
    ∃ d, assignments.foldlM override c = .ok d := by
  induction assignments generalizing c with
  | nil => exact ⟨c, rfl⟩
  | cons a rest ih =>
    obtain ⟨hfirst, hrest⟩ := allReadable_cons.1 h
    obtain ⟨b, hb⟩ := exists_override_eq_ok hfirst c
    obtain ⟨d, hd⟩ := ih hrest b
    exact ⟨d, by rw [List.foldlM_cons, hb]; exact hd⟩

theorem foldlM_override_eq_ok_iff {assignments : List (String × String)} {c d : FactoryConfig} :
    assignments.foldlM override c = .ok d ↔
      AllReadable (valuesIn assignments) ∧ Layered (valuesIn assignments) c d := by
  refine ⟨layered_of_foldlM, fun ⟨hreadable, hlayered⟩ => ?_⟩
  obtain ⟨e, he⟩ := exists_foldlM_eq_ok hreadable c
  rwa [hlayered.eq (layered_of_foldlM he).2]

/-- The name of the constructor is not blank and the limit is not zero. -/
structure Valid (c : FactoryConfig) : Prop where
  constructor : ¬ Text.blank c.constructor
  maxDocumentBytes : c.maxDocumentBytes ≠ 0

theorem validate_eq_ok_iff {c : FactoryConfig} : c.validate = .ok () ↔ c.Valid := by
  unfold validate
  split
  · next hblank => exact iff_of_false nofun fun h => h.constructor hblank
  · next hname =>
    split
    · next hzero => exact iff_of_false nofun fun h => h.maxDocumentBytes hzero
    · next hpositive => exact iff_of_true rfl ⟨hname, hpositive⟩

theorem withOverrides_eq_ok_iff {assignments : List (String × String)} {c d : FactoryConfig} :
    c.withOverrides assignments = .ok d ↔
      AllReadable (valuesIn assignments) ∧ Layered (valuesIn assignments) c d ∧ d.Valid := by
  rw [withOverrides, ← and_assoc, ← foldlM_override_eq_ok_iff, ← validate_eq_ok_iff]
  constructor
  · intro h
    obtain ⟨e, hfold, h⟩ := bind_eq_ok_iff.1 h
    obtain ⟨_, hvalid, h⟩ := bind_eq_ok_iff.1 h
    obtain rfl := Except.ok.inj h
    exact ⟨hfold, hvalid⟩
  · rintro ⟨hfold, hvalid⟩
    exact bind_eq_ok_iff.2 ⟨d, hfold, bind_eq_ok_iff.2 ⟨(), hvalid, rfl⟩⟩

end FactoryConfig

end AccessPolicy
