import AccessPolicy.Proofs.Config.Reading
import AccessPolicy.Proofs.Json.Naturals
import AccessPolicy.Proofs.Text.Utf8
import Mathlib.Data.List.Nodup

namespace AccessPolicy

open Json ConfigReader

namespace Json

theorem Value.sorted_eq_string_iff {v : Value} {s : String} :
    v.sorted = .string s ↔ v = .string s := by
  cases v <;> simp [sorted]

theorem Value.sorted_eq_number_iff {v : Value} {n : Number} :
    v.sorted = .number n ↔ v = .number n := by
  cases v <;> simp [sorted]

theorem Value.sorted_eq_null_iff {v : Value} : v.sorted = .null ↔ v = .null := by
  cases v <;> simp [sorted]

/-- Members with different keys are put in another order by sorting and are otherwise kept. -/
theorem Value.sortMembers_sorted_perm {ms : List (String × Value)}
    (h : (ms.map Prod.fst).Nodup) :
    (sortMembers (sortedMembers ms).reverse).Perm (sortedMembers ms) := by
  have hperm := List.reverse_perm (sortedMembers ms)
  refine (sortMembers_perm ((hperm.map Prod.fst).nodup_iff.2 ?_)).trans hperm
  rw [sortedMembers_eq_map, List.map_map]
  exact h

theorem Value.eq_single_null_of_sorted {v : Value} (h : v.Distinct) {name : String}
    (hsorted : v.sorted = .object [(name, .null)]) : v = .object [(name, .null)] := by
  cases v with
  | object ms =>
    have hperm := sortMembers_sorted_perm (distinct_object.1 h).1
    rw [object.inj hsorted, List.singleton_perm, sortedMembers_eq_map] at hperm
    obtain ⟨⟨key, payload⟩, rfl, hmember⟩ := List.map_eq_singleton_iff.1 hperm.symm
    obtain ⟨rfl, hpayload⟩ := Prod.mk.inj hmember
    obtain rfl : payload = .null := sorted_eq_null_iff.1 hpayload
    rfl
  | _ => simp [sorted] at hsorted

end Json

namespace ConfigReader.Draft

variable {d : Draft} {s : Setting} {v : Value}

/-- A setting is given as a string, as a number or as a name with a null under it. -/
theorem form_of_gets (h : d.Gets s (some v)) :
    (∃ text, v = .string text) ∨ (∃ n, v = .number n) ∨ ∃ name, v = .object [(name, .null)] := by
  obtain ⟨constructor?, resolution?, bytes?⟩ := d
  cases s with
  | constructor =>
    obtain hdecode | _ := h
    exact .inl ⟨_, string_eq_ok_iff.1 hdecode⟩
  | resolution =>
    obtain hdecode | _ := h
    obtain ⟨name, -, hstring | hobject⟩ := named_eq_ok_iff.1 hdecode
    · exact .inl ⟨name, hstring⟩
    · exact .inr (.inr ⟨name, hobject⟩)
  | maxDocumentBytes =>
    obtain hdecode | _ := h
    exact .inr (.inl ⟨_, word_eq_ok_iff.1 hdecode⟩)

theorem sorted_eq_of_gets (h : d.Gets s (some v)) : v.sorted = v := by
  obtain ⟨text, rfl⟩ | ⟨n, rfl⟩ | ⟨name, rfl⟩ := form_of_gets h
  · rfl
  · rfl
  · exact Value.sorted_single name .null

theorem depth_le_of_gets (h : d.Gets s (some v)) : v.depth ≤ 1 := by
  obtain ⟨text, rfl⟩ | ⟨n, rfl⟩ | ⟨name, rfl⟩ := form_of_gets h
  · exact Nat.zero_le 1
  · exact Nat.zero_le 1
  · exact Nat.le_refl 1

/-- Sorting changes nothing in what is given for a setting. -/
theorem gets_sorted {given : Option Value} (h : d.Gets s given) :
    d.Gets s (given.map Value.sorted) := by
  cases given with
  | none => exact h
  | some v =>
    rw [Option.map_some, sorted_eq_of_gets h]
    exact h

/-- Sorting makes nothing into what can be given for a setting, where no key is repeated. -/
theorem gets_of_gets_sorted {given : Option Value} (hdistinct : ∀ v ∈ given, v.Distinct)
    (h : d.Gets s (given.map Value.sorted)) : d.Gets s given := by
  cases given with
  | none => exact h
  | some v =>
    rw [Option.map_some] at h
    have hsame : v.sorted = v := by
      obtain ⟨text, hv⟩ | ⟨n, hv⟩ | ⟨name, hv⟩ := form_of_gets h
      · rw [hv, Value.sorted_eq_string_iff.1 hv]
      · rw [hv, Value.sorted_eq_number_iff.1 hv]
      · rw [hv, Value.eq_single_null_of_sorted (hdistinct v rfl) hv]
    rwa [hsame] at h

theorem keys_members (given : List (Setting × Value)) :
    (members given).map Prod.fst = (given.map Prod.fst).map Setting.field := by
  simp [members]

theorem lookup_members (given : List (Setting × Value)) (s : Setting) :
    (members given).lookup s.field = given.lookup s := by
  induction given with
  | nil => rfl
  | cons g given ih =>
    obtain ⟨t, v⟩ := g
    rw [members_cons, List.lookup_cons, List.lookup_cons, ih]
    by_cases h : s = t
    · simp [h]
    · rw [beq_eq_false_iff_ne.2 h, beq_eq_false_iff_ne.2 (Setting.field_injective.ne h)]

theorem field?_members (given : List (Setting × Value)) (s : Setting) :
    FactoryConfig.layout.field? s.field (Value.object (members given).reverse).sorted =
      (given.lookup s).map Value.sorted := by
  rw [field?_sorted, lastMember?, List.reverse_reverse, lookup_members]

theorem field?_items {items : List Value} (h : items.length ≤ Setting.all.length) (s : Setting) :
    FactoryConfig.layout.field? s.field (Value.array items).sorted =
      ((Setting.all.zip items).reverse.lookup s).map Value.sorted := by
  rcases items with _ | ⟨a, _ | ⟨b, _ | ⟨c, _ | ⟨e, items⟩⟩⟩⟩
  case cons.cons.cons.cons =>
    simp only [Setting.all, List.length_cons, List.length_nil] at h
    omega
  all_goals cases s <;> rfl

theorem FilledBy.gets (h : d.FilledBy v) (s : Setting) :
    d.Gets s (FactoryConfig.layout.field? s.field v.sorted) := by
  cases h with
  | object hholds =>
    rw [field?_members]
    exact gets_sorted (hholds.gets s)
  | array hle hholds =>
    rw [field?_items hle]
    exact gets_sorted (hholds.gets s)

theorem FilledBy.fits (h : d.FilledBy v) : FactoryConfig.Fits v.sorted := by
  cases h with
  | object hholds =>
    intro m hm
    have hmem := List.mem_reverse.1 (mem_of_mem_sortMembers hm)
    rw [Value.sortedMembers_eq_map] at hmem
    obtain ⟨n, hn, rfl⟩ := List.mem_map.1 hmem
    obtain ⟨g, -, rfl⟩ := List.mem_map.1 (List.mem_reverse.1 hn)
    exact ⟨g.1, rfl⟩
  | array hle hholds =>
    rw [Value.sorted, FactoryConfig.Fits, Value.sortedItems_eq_map, List.length_map]
    exact hle

theorem Holds.gets_of_mem {given : List (Setting × Value)} {g : Setting × Value} (h : d.Holds given)
    (hg : g ∈ given) : d.Gets g.1 (some g.2) := by
  obtain ⟨later, earlier, rfl⟩ := List.append_of_mem hg
  have honce := h.once
  rw [List.map_append, List.map_cons] at honce
  have hlookup : (later ++ g :: earlier).lookup g.1 = some g.2 := by
    refine List.lookup_eq_some_iff.2 ⟨later, earlier, rfl, fun p hp => bne_iff_ne.2 ?_⟩
    exact ((List.nodup_append.1 honce).2.2 p.1 (List.mem_map_of_mem hp) g.1 List.mem_cons_self).symm
  rw [← hlookup]
  exact h.gets g.1

theorem FilledBy.depth_le (h : d.FilledBy v) : v.depth ≤ 2 := by
  cases h with
  | object hholds =>
    refine Nat.succ_le_succ (Value.depthMembers_le_iff.2 fun m hm => ?_)
    obtain ⟨g, hg, rfl⟩ := List.mem_map.1 (List.mem_reverse.1 hm)
    exact depth_le_of_gets (hholds.gets_of_mem hg)
  | @array items hle hholds =>
    refine Nat.succ_le_succ (Value.depthItems_le_iff.2 fun v hv => ?_)
    rw [← List.map_snd_zip hle] at hv
    obtain ⟨g, hg, rfl⟩ := List.mem_map.1 hv
    exact depth_le_of_gets (hholds.gets_of_mem (List.mem_reverse.2 hg))

theorem exists_members {ms : List (String × Value)} (h : ∀ m ∈ ms, ∃ s : Setting, m.1 = s.field) :
    ∃ given, members given = ms := by
  induction ms with
  | nil => exact ⟨[], rfl⟩
  | cons m ms ih =>
    obtain ⟨⟨s, hs⟩, hrest⟩ := List.forall_mem_cons.1 h
    obtain ⟨given, rfl⟩ := ih hrest
    exact ⟨(s, m.2) :: given, by rw [members_cons, ← hs]⟩

/-- A value in which no key is repeated fills the draft that its settings decode to. -/
theorem filledBy_of_gets (hdistinct : v.Distinct) (hfits : FactoryConfig.Fits v.sorted)
    (hgets : ∀ s, d.Gets s (FactoryConfig.layout.field? s.field v.sorted)) : d.FilledBy v := by
  cases v with
  | object ms =>
    obtain ⟨hnodup, hvalues⟩ := Value.distinct_object.1 hdistinct
    have hknown : ∀ m ∈ ms.reverse, ∃ s : Setting, m.1 = s.field := by
      intro m hm
      have hmem : (m.1, m.2.sorted) ∈ Value.sortedMembers ms := by
        rw [Value.sortedMembers_eq_map]
        exact List.mem_map.2 ⟨m, List.mem_reverse.1 hm, rfl⟩
      have hsorted := (Value.sortMembers_sorted_perm hnodup).mem_iff.2 hmem
      exact hfits (m.1, m.2.sorted) hsorted
    obtain ⟨given, hgiven⟩ := exists_members hknown
    obtain rfl : (members given).reverse = ms := by rw [hgiven, List.reverse_reverse]
    refine .object ⟨?_, fun s => gets_of_gets_sorted (fun v hv => ?_) ?_⟩
    · have hkeys := (((members given).reverse_perm).map Prod.fst).nodup_iff.1 hnodup
      rw [keys_members] at hkeys
      exact hkeys.of_map Setting.field
    · rw [← lookup_members] at hv
      exact hvalues _ (List.mem_reverse.2 (mem_of_lookup hv))
    · rw [← field?_members]
      exact hgets s
  | array items =>
    have hle : items.length ≤ Setting.all.length := by
      rw [Value.sorted, FactoryConfig.Fits, Value.sortedItems_eq_map, List.length_map] at hfits
      exact hfits
    refine .array hle ⟨?_, fun s => gets_of_gets_sorted (fun v hv => ?_) ?_⟩
    · rw [((Setting.all.zip items).reverse_perm.map Prod.fst).nodup_iff]
      exact nodup_zip items
    · obtain ⟨before, after, hsplit, -⟩ := List.lookup_eq_some_iff.1 hv
      have hmem : (s, v) ∈ Setting.all.zip items := by
        rw [← List.mem_reverse, hsplit]
        simp
      exact Value.distinct_array.1 hdistinct v (List.of_mem_zip hmem).2
    · rw [← field?_items hle]
      exact hgets s
  | _ => cases hfits

end ConfigReader.Draft

namespace FactoryConfig

open ConfigReader.Draft

/-- What was read token by token is what the value that the text spells decodes to. -/
theorem decode_of_filledBy {d : Draft} {v : Value} (h : d.FilledBy v) :
    decode v.sorted = .ok d.toConfig :=
  decode_eq_ok_iff.2 ⟨h.fits, d, h.gets, rfl⟩

theorem read_of_filledBy {cs : List Char} {d : Draft} {v : Value} (hspells : v.SpelledBy cs)
    (h : d.FilledBy v) : Json.read cs = some v.sorted := by
  have hdepth := h.depth_le
  have hlimit : (2 : Nat) ≤ Reader.maxDepth := by decide
  exact readWithin_eq_some_iff.2 ⟨v, hspells, by omega, rfl⟩

theorem ofFile_eq_ok_iff {path : String} {cs : List Char} {bytes : List UInt8} {c : FactoryConfig}
    (hbytes : Text.Utf8.decode bytes = (cs, [])) :
    ofFile path (.ok bytes) = .ok c ↔ ConfigReader.read cs = .ok c ∧ c.validate = .ok () := by
  simp only [ofFile, hbytes]
  cases hread : ConfigReader.read cs with
  | error e => simp
  | ok d =>
    simp only [map_eq_ok_iff, Except.ok.injEq]
    constructor
    · rintro ⟨_, hvalid, rfl⟩
      exact ⟨rfl, hvalid⟩
    · rintro ⟨rfl, hvalid⟩
      exact ⟨(), hvalid, rfl⟩

theorem exists_error_of_ofFile {path : String} {cs : List Char} {bytes : List UInt8}
    (hbytes : Text.Utf8.decode bytes = (cs, [])) (h : ∀ c, ConfigReader.read cs ≠ .ok c) :
    ∃ e : ReadError, ofFile path (.ok bytes) = .error (unreadable path e.message) := by
  simp only [ofFile, hbytes]
  cases hread : ConfigReader.read cs with
  | error e => exact ⟨e, rfl⟩
  | ok c => exact absurd hread (h c)

/-- A file in whose text no object repeats a key is accepted exactly if the text is that of a value
which decodes to a valid configuration, and as that configuration. Whatever else stands in it, a
text is refused if it spells no value, and one that spells an object if a setting comes twice among
the members or if one of them is no setting. -/
theorem ofFile_agrees_with_decode (path text : String) :
    ((∀ v : Value, v.SpelledBy text.toList → v.Distinct) → ∀ c,
      ofFile path (.ok (Text.Utf8.encode text.toList)) = .ok c ↔
        ∃ v, Json.read text.toList = some v ∧ decode v = .ok c ∧ c.validate = .ok ()) ∧
    ((∀ v : Value, ¬ v.SpelledBy text.toList) → ∃ e : ReadError,
      ofFile path (.ok (Text.Utf8.encode text.toList)) = .error (unreadable path e.message)) ∧
    ∀ ms, (Value.object ms).SpelledBy text.toList →
      ((∃ s : Setting, 2 ≤ (ms.map Prod.fst).count s.field) ∨
        ∃ m ∈ ms, ∀ s : Setting, m.1 ≠ s.field) →
      ∃ e : ReadError,
        ofFile path (.ok (Text.Utf8.encode text.toList)) = .error (unreadable path e.message) := by
  have hbytes := Text.Utf8.decode_encode text.toList
  refine ⟨fun hdistinct c => ?_, fun hnone => ?_, fun ms hspells hbad => ?_⟩
  · rw [ofFile_eq_ok_iff hbytes, ConfigReader.read_eq_ok_iff]
    constructor
    · rintro ⟨⟨v, d, hspells, hfilled, rfl⟩, hvalid⟩
      exact ⟨v.sorted, read_of_filledBy hspells hfilled, decode_of_filledBy hfilled, hvalid⟩
    · rintro ⟨w, hread, hdecode, hvalid⟩
      obtain ⟨v, hspells, -, rfl⟩ := readWithin_eq_some_iff.1 hread
      obtain ⟨hfits, d, hgets, rfl⟩ := decode_eq_ok_iff.1 hdecode
      exact ⟨⟨v, d, hspells, filledBy_of_gets (hdistinct v hspells) hfits hgets, rfl⟩, hvalid⟩
  · refine exists_error_of_ofFile hbytes fun c hread => ?_
    obtain ⟨v, d, hspells, -⟩ := ConfigReader.read_eq_ok_iff.1 hread
    exact hnone v hspells
  · refine exists_error_of_ofFile hbytes fun c hread => ?_
    obtain ⟨v, d, hother, hfilled, -⟩ := ConfigReader.read_eq_ok_iff.1 hread
    obtain rfl := hspells.eq hother
    obtain @⟨given, hholds⟩ := hfilled
    obtain ⟨s, htwice⟩ | ⟨m, hm, hunknown⟩ := hbad
    · have hnodup : ((members given).reverse.map Prod.fst).Nodup := by
        rw [((members given).reverse_perm.map Prod.fst).nodup_iff, keys_members]
        exact hholds.once.map Setting.field_injective
      have honce := List.nodup_iff_count_le_one.1 hnodup s.field
      omega
    · obtain ⟨g, -, rfl⟩ := List.mem_map.1 (List.mem_reverse.1 hm)
      exact hunknown g.1 rfl

/-- Two settings, the later one first and by its name. -/
def laterFirst : Value :=
  .object [("resolution", .object [("eager", .null)]), ("max_document_bytes", .number (.natural 64))]

/-- One setting with two values. -/
def givenTwice : Value :=
  .object [("resolution", .string "lazy"), ("resolution", .string "eager")]

theorem laterFirst_spelledBy : laterFirst.SpelledBy laterFirst.text.toList := by
  refine Value.spelledBy_text ?_
  simp [laterFirst, Value.legible_object, Value.Legible, Value.LegibleMembers, Number.legible_natural]

theorem givenTwice_spelledBy : givenTwice.SpelledBy givenTwice.text.toList := by
  refine Value.spelledBy_text ?_
  simp [givenTwice, Value.legible_object, Value.legible_string]

/-- The later setting may come first and by its name. A file with one setting twice is refused, and
so is the empty file. -/
theorem ofFile_agrees_with_decode_laterFirst :
    ((∀ v : Value, v.SpelledBy laterFirst.text.toList → v.Distinct) ∧
      ofFile "factory.json" (.ok (Text.Utf8.encode laterFirst.text.toList)) =
        .ok ⟨"standard", .eager, 64⟩) ∧
    (∃ e : ReadError, ofFile "factory.json" (.ok (Text.Utf8.encode givenTwice.text.toList)) =
      .error (unreadable "factory.json" e.message)) ∧
    ∃ e : ReadError, ofFile "factory.json" (.ok (Text.Utf8.encode "".toList)) =
      .error (unreadable "factory.json" e.message) := by
  have hdistinct (v : Value) (hv : v.SpelledBy laterFirst.text.toList) : v.Distinct := by
    obtain rfl := laterFirst_spelledBy.eq hv
    simp [laterFirst, Value.Distinct, Value.DistinctMembers]
  have hsorted : laterFirst.sorted = .object [("max_document_bytes", .number (.natural 64)),
      ("resolution", .object [("eager", .null)])] := by
    simp [laterFirst, Value.sorted, Value.sortedMembers, sortMembers, List.mergeSort,
      List.MergeSort.Internal.splitInTwo]
  have hread : Json.read laterFirst.text.toList = some (.object
      [("max_document_bytes", .number (.natural 64)), ("resolution", .object [("eager", .null)])]) :=
    readWithin_eq_some_iff.2 ⟨_, laterFirst_spelledBy, by decide, hsorted⟩
  have hempty (v : Value) : ¬ v.SpelledBy "".toList := by
    intro h
    rw [Value.SpelledBy] at h
    rcases v with _ | _ | _ | _ | (_ | ⟨v, vs⟩) | (_ | ⟨⟨key, v⟩, ms⟩) <;>
      simp [scan, scanOnto, Value.tokens] at h
  refine ⟨⟨hdistinct, ?_⟩, ?_, ?_⟩
  · exact ((ofFile_agrees_with_decode _ _).1 hdistinct _).2 ⟨_, hread, rfl, rfl⟩
  · exact (ofFile_agrees_with_decode _ _).2.2 _ givenTwice_spelledBy (.inl ⟨.resolution, by decide⟩)
  · exact (ofFile_agrees_with_decode _ _).2.1 hempty

end FactoryConfig

end AccessPolicy
