import AccessPolicy.Capability
import AccessPolicy.Proofs.Config.Agreement
import AccessPolicy.Proofs.Json.Naturals
import AccessPolicy.Proofs.Version.Decoding

namespace AccessPolicy

open Json

namespace Json

/-- The array of what stands in the members of an object, in the order of the members. -/
def Value.inOrder : Value → Value
  | .object members => .array (members.map Prod.snd)
  | v => v

/-- What is written is a normal form: it is read back from its text, decoding takes the value that
was written and the array of its fields for what they were written for, whatever form that was
decoded from, and different things have different texts. -/
structure Survives (encode : α → Value) (decode : Decoder α) : Prop where
  restored : ∀ a, ∃ v, Json.read (encode a).text.toList = some v ∧ decode v = .ok a
  again : ∀ v a, decode v = .ok a → decode (encode a) = .ok a ∧ decode (encode a).inOrder = .ok a
  normal : ∀ a b, (encode a).text = (encode b).text ↔ a = b

theorem Value.Denotes.exists_read {v : Value} {decode : Decoder α} {a : α} (h : v.Denotes decode a)
    (hdepth : v.depth ≤ Reader.maxDepth) :
    ∃ w, Json.read v.text.toList = some w ∧ decode w = .ok a := by
  rw [toList_text]
  exact ⟨v.sorted, readWithin_chars h.legible hdepth, h.decode_sorted⟩

theorem survives_of_denotes {encode : α → Value} {decode : Decoder α}
    (hdenotes : ∀ a, (encode a).Denotes decode a)
    (hdepth : ∀ a, (encode a).depth ≤ Reader.maxDepth)
    (hagain : ∀ a, decode (encode a) = .ok a) (horder : ∀ a, decode (encode a).inOrder = .ok a) :
    Survives encode decode where
  restored a := (hdenotes a).exists_read (hdepth a)
  again _ a _ := ⟨hagain a, horder a⟩
  normal a b := by
    constructor
    · intro h
      obtain ⟨v, hv, ha⟩ := (hdenotes a).exists_read (hdepth a)
      obtain ⟨w, hw, hb⟩ := (hdenotes b).exists_read (hdepth b)
      rw [h, hw] at hv
      obtain rfl := Option.some.inj hv
      exact Except.ok.inj (ha.symm.trans hb)
    · rintro rfl
      rfl

theorem denotes_word (n : UInt64) : (Value.number (.natural n)).Denotes word n :=
  ⟨Value.legible_natural n, rfl⟩

/-- A list of values of which each is at most as deep as a tag around a scalar. -/
theorem Value.depth_array_map_le (encode : α → Value) (h : ∀ a, (encode a).depth ≤ 1)
    (as : List α) : (Value.array (as.map encode)).depth ≤ 2 := by
  refine Nat.succ_le_succ (depthItems_le_iff.2 fun v hv => ?_)
  obtain ⟨a, -, rfl⟩ := List.mem_map.1 hv
  exact h a

theorem Value.depth_le_maxDepth {ms : List (String × Value)} (h : FieldsBelow 3 ms) :
    (Value.object ms).depth ≤ Reader.maxDepth :=
  Nat.le_trans (depth_object_le_iff.2 ⟨by decide, h⟩) (by decide)

end Json

namespace Version

theorem denotes (v : Version) : v.encode.Denotes decode v := by
  have hcomponents : (componentsValue v.components).Denotes (list word) v.components :=
    denotes_list fun n _ => denotes_word n
  constructor
  · simpa [encode, componentsValue, Value.legible_object] using hcomponents.legible
  · rw [encode, decode, Layout.required_of_last "components" ?_ hcomponents]
    · rfl
    · simp [componentsValue]

theorem survives : Survives encode decode := by
  refine survives_of_denotes denotes (fun v => Value.depth_le_maxDepth ?_) decode_encode
    fun v => decode_eq_ok_iff.2 (.inr rfl)
  have hcomponents := Value.depth_array_map_le (fun n => .number (.natural n))
    (fun n => Nat.zero_le 1) v.components
  exact fieldsBelow_cons.2 ⟨Nat.lt_succ_of_le hcomponents, fieldsBelow_nil 3⟩

end Version

theorem PatternPart.denotes (part : PatternPart) : part.encode.Denotes PatternPart.decode part := by
  cases part with
  | exact n =>
    constructor
    · simpa [encode, Value.legible_object] using Value.legible_natural n
    · rw [encode, Value.sorted_single]
      rfl
  | anyOne => exact ⟨Value.legible_string _, rfl⟩
  | anyRest => exact ⟨Value.legible_string _, rfl⟩

theorem PatternPart.depth_encode_le (part : PatternPart) : part.encode.depth ≤ 1 := by
  cases part with
  | exact n => exact Nat.le_refl 1
  | anyOne => exact Nat.zero_le 1
  | anyRest => exact Nat.zero_le 1

namespace VersionPattern

theorem denotes (p : VersionPattern) : p.encode.Denotes decode p := by
  have hparts : (Value.array (p.parts.map PatternPart.encode)).Denotes
      (list PatternPart.decode) p.parts := denotes_list fun part _ => part.denotes
  constructor
  · simpa [encode, Value.legible_object, Value.legible_string] using hparts.legible
  · rw [encode, decode, Layout.required_of_last "source" ?_ (denotes_string p.source),
      Layout.required_of_last "parts" ?_ hparts]
    · rfl
    all_goals simp

theorem survives : Survives encode decode := by
  refine survives_of_denotes denotes (fun p => Value.depth_le_maxDepth ?_) decode_encode
    fun p => decode_eq_ok_iff.2 ⟨p.parts.map PatternPart.encode, .inr rfl, ?_⟩
  · have hparts := Value.depth_array_map_le _ PatternPart.depth_encode_le p.parts
    simp only [fieldsBelow_cons, Value.depth]
    exact ⟨Nat.succ_pos 2, Nat.lt_succ_of_le hparts, fieldsBelow_nil 3⟩
  · rw [List.forall₂_map_left_iff, List.forall₂_same]
    exact fun part _ => part.decode_encode

end VersionPattern

theorem Capability.denotes (c : Capability) : c.encode.Denotes Capability.decode c := by
  refine ⟨Value.legible_string c.name, ?_⟩
  cases c <;> rfl

namespace CapabilitySet

theorem has_foldl_insert (cs : List Capability) (s : CapabilitySet) (c : Capability) :
    (cs.foldl insert s).has c ↔ c ∈ cs ∨ s.has c := by
  induction cs generalizing s with
  | nil => simp
  | cons d cs ih =>
    rw [List.foldl_cons, ih, has_insert, List.mem_cons, Bool.or_eq_true, decide_eq_true_eq,
      eq_comm (a := d), or_left_comm, or_assoc]

/-- Neither order nor repetition matters for what is in a set. -/
theorem has_ofList {cs : List Capability} {c : Capability} : (ofList cs).has c ↔ c ∈ cs := by
  rw [ofList, has_foldl_insert]
  cases c <;> simp [empty, has]

theorem eq_of_has {s t : CapabilitySet} (h : ∀ c, s.has c ↔ t.has c) : s = t := by
  have hsame (c : Capability) : s.has c = t.has c := Bool.eq_iff_iff.2 (h c)
  obtain ⟨fromStream, withResolver, inferred⟩ := s
  obtain rfl := hsame .fromStream
  obtain rfl := hsame .withResolver
  obtain rfl := hsame .inferred
  rfl

theorem ofList_eq_iff {cs : List Capability} {s : CapabilitySet} :
    ofList cs = s ↔ ∀ c, s.has c ↔ c ∈ cs := by
  constructor
  · rintro rfl c
    exact has_ofList
  · intro h
    exact eq_of_has fun c => has_ofList.trans (h c).symm

/-- A set is decoded from its capabilities, in any order and each as often as it likes. -/
theorem decode_eq_ok_iff {v : Value} {s : CapabilitySet} :
    decode v = .ok s ↔ ∃ items cs, layout.Spells v [.array items] ∧
      List.Forall₂ (fun i c => Capability.decode i = .ok c) items cs ∧ ∀ c, s.has c ↔ c ∈ cs := by
  have hfaultless :=
    (layout.faultless_required v "capabilities" (list Capability.decode)).map ofList
  have hspells (items : Value) : layout.Spells v [items] ↔ _ := Layout.spells_iff (by decide) rfl
  rw [decode, Layout.finish_eq_ok_iff hfaultless]
  simp only [hspells, result_map_eq_ok_iff, Layout.result_required_eq_ok_iff, list_eq_ok_iff,
    ofList_eq_iff]
  constructor
  · rintro ⟨⟨cs, ⟨_, hfield, items, rfl, hitems⟩, hmembers⟩, hform⟩
    exact ⟨items, cs, ⟨.cons hfield .nil, hform⟩, hitems, hmembers⟩
  · rintro ⟨items, cs, ⟨hfields, hform⟩, hitems, hmembers⟩
    obtain _ | ⟨hfield, -⟩ := hfields
    exact ⟨⟨cs, ⟨_, hfield, items, rfl, hitems⟩, hmembers⟩, hform⟩

theorem denotes (s : CapabilitySet) : s.encode.Denotes decode s := by
  have hmembers : (Value.array (s.toList.map Capability.encode)).Denotes
      (list Capability.decode) s.toList := denotes_list fun c _ => c.denotes
  have hsame : ofList s.toList = s := ofList_eq_iff.2 fun c => mem_toList.symm
  constructor
  · simpa [encode, Value.legible_object] using hmembers.legible
  · rw [encode, decode, Layout.required_of_last "capabilities" ?_ hmembers]
    · exact congrArg Except.ok hsame
    · simp

theorem decode_of_spells {v : Value} {s : CapabilitySet}
    (h : layout.Spells v [.array (s.toList.map Capability.encode)]) : decode v = .ok s := by
  refine decode_eq_ok_iff.2 ⟨_, s.toList, h, ?_, fun c => mem_toList.symm⟩
  rw [List.forall₂_map_left_iff, List.forall₂_same]
  intro c _
  cases c <;> rfl

theorem survives : Survives encode decode := by
  refine survives_of_denotes denotes (fun s => Value.depth_le_maxDepth ?_)
    (fun s => decode_of_spells (.inl ⟨_, rfl, .cons rfl .nil⟩)) fun s => decode_of_spells (.inr rfl)
  have hmembers := Value.depth_array_map_le Capability.encode (fun c => Nat.zero_le 1) s.toList
  exact fieldsBelow_cons.2 ⟨Nat.lt_succ_of_le hmembers, fieldsBelow_nil 3⟩

end CapabilitySet

namespace FactoryConfig

open ConfigReader ConfigReader.Draft

/-- A configuration as what its settings give, the latest first. -/
def givenBy (c : FactoryConfig) : List (Setting × Value) :=
  [(.maxDocumentBytes, .number (.natural c.maxDocumentBytes)), (.resolution, c.resolution.encode),
    (.constructor, .string c.constructor)]

def draftOf (c : FactoryConfig) : Draft :=
  ⟨some c.constructor, some c.resolution, some c.maxDocumentBytes⟩

theorem holds_draftOf (c : FactoryConfig) : c.draftOf.Holds c.givenBy := by
  refine ⟨by simp [givenBy], fun s => ?_⟩
  cases s with
  | constructor => exact .some rfl
  | resolution =>
    refine .some ?_
    cases c.resolution <;> rfl
  | maxDocumentBytes => exact .some rfl

/-- What is written for a configuration gives all of its settings. -/
theorem filledBy_encode (c : FactoryConfig) : c.draftOf.FilledBy c.encode :=
  .object c.holds_draftOf

theorem denotes (c : FactoryConfig) : c.encode.Denotes decode c := by
  refine ⟨?_, decode_of_filledBy c.filledBy_encode⟩
  simp [encode, ResolutionMode.encode, Value.legible_object, Value.legible_string,
    Value.legible_natural]

theorem survives : Survives encode decode := by
  refine survives_of_denotes denotes (fun c => ?_) (fun c => ?_) fun c => ?_
  · exact Nat.le_trans c.filledBy_encode.depth_le (by decide)
  · obtain ⟨constructor, _ | _, bytes⟩ := c <;> rfl
  · obtain ⟨constructor, _ | _, bytes⟩ := c <;> rfl

/-- A file with what is written for a configuration is read as that configuration. -/
theorem read_text (c : FactoryConfig) : ConfigReader.read c.encode.text.toList = .ok c := by
  exact read_eq_ok_iff.2
    ⟨c.encode, c.draftOf, Value.spelledBy_text c.denotes.legible, c.filledBy_encode, rfl⟩

end FactoryConfig

/-- Versions, patterns, sets of capabilities and configurations are read back from the text that is
written for them, which is a normal form of all that decodes to them. The same holds of a
configuration that is read token by token. A set of capabilities is decoded from its members in any
order, each of them once or more often. -/
theorem codecs_keep_values :
    Survives Version.encode Version.decode ∧
    Survives VersionPattern.encode VersionPattern.decode ∧
    Survives CapabilitySet.encode CapabilitySet.decode ∧
    Survives FactoryConfig.encode FactoryConfig.decode ∧
    (∀ c : FactoryConfig, ConfigReader.read c.encode.text.toList = .ok c) ∧
    ∀ v s, CapabilitySet.decode v = .ok s ↔ ∃ items cs,
      CapabilitySet.layout.Spells v [.array items] ∧
      List.Forall₂ (fun i c => Capability.decode i = .ok c) items cs ∧ ∀ c, s.has c ↔ c ∈ cs :=
  ⟨Version.survives, VersionPattern.survives, CapabilitySet.survives, FactoryConfig.survives,
    FactoryConfig.read_text, fun _ _ => CapabilitySet.decode_eq_ok_iff⟩

end AccessPolicy
