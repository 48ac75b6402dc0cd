import AccessPolicy.Proofs.Grammar.Depth
import AccessPolicy.Proofs.Grammar.Operands
import AccessPolicy.Proofs.Grammar.Schema
import AccessPolicy.Proofs.Json.Ordered

namespace AccessPolicy

open Json

namespace Json

namespace Layout

variable {l : Layout} {v w : Value}

theorem ordered_of_field? {key : String} {c : Value} (hv : v.Ordered)
    (h : l.field? key v = some c) : c.Ordered := by
  cases v with
  | object ms => exact (Value.ordered_object.1 hv).2 _ (mem_of_lookup h)
  | array vs => exact Value.ordered_array.1 hv _ (List.mem_of_getElem? h)
  | _ => cases h

theorem AlikeFormed.missing_eq (h : l.AlikeFormed v w) (key : String) :
    l.missing key v = l.missing key w := by
  cases v <;> cases w <;> first | rfl | cases h

theorem AlikeFormed.finish_eq (h : l.AlikeFormed v w) (place : Place) (p : Partial α) :
    l.finish place v p = l.finish place w p := by
  cases v with
  | object ms =>
    cases w with
    | object ns => rfl
    | _ => cases h
  | array vs =>
    cases w with
    | array ws =>
      obtain hlength | ⟨hvs, hws⟩ := h
      · simp only [finish, hlength]
      · simp only [finish, if_neg (Nat.not_lt.2 hvs), if_neg (Nat.not_lt.2 hws)]
    | _ => cases h
  | _ => cases h

theorem AlikeFormed.finishObject_eq (h : l.AlikeFormed v w) (p : Partial α) :
    l.finishObject v p = l.finishObject w p := by
  cases v <;> cases w <;> first | rfl | cases h

end Layout

theorem Value.mem_operands_iff {kinds : List ElementKind} {v : Value} (hv : v.Ordered)
    {k : ElementKind} {c : Value} :
    (k, c) ∈ v.operands kinds ↔ k ∈ kinds ∧ v.child? k.localName = some c := by
  cases v with
  | object ms =>
    simp only [operands, child?, member?_eq_some_iff (Value.ordered_object.1 hv).1,
      List.mem_filterMap, Option.map_eq_some_iff, ElementKind.lookup_tableOf_eq_some_iff]
    constructor
    · rintro ⟨⟨_, _⟩, hm, l, ⟨hl, rfl⟩, hpair⟩
      obtain ⟨rfl, rfl⟩ := Prod.mk.inj hpair
      exact ⟨hl, hm⟩
    · rintro ⟨hk, hm⟩
      exact ⟨_, hm, k, ⟨hk, rfl⟩, rfl⟩
  | _ => simp [operands, child?]

theorem Value.operands_increase (kinds : List ElementKind) {v : Value} (hv : v.Ordered) :
    (v.operands kinds).Pairwise fun m n => m.1.localName < n.1.localName := by
  cases v with
  | object ms =>
    refine List.Pairwise.filterMap _ (fun m n hlt a ha b hb => ?_) (Value.ordered_object.1 hv).1
    obtain ⟨k, hk, rfl⟩ := Option.map_eq_some_iff.1 ha
    obtain ⟨l, hl, rfl⟩ := Option.map_eq_some_iff.1 hb
    obtain ⟨-, hm⟩ := ElementKind.lookup_tableOf_eq_some_iff.1 hk
    obtain ⟨-, hn⟩ := ElementKind.lookup_tableOf_eq_some_iff.1 hl
    simpa only [hm, hn] using hlt
  | _ => exact .nil

theorem Value.below_of_child? {name : String} {v c : Value} (h : v.child? name = some c) :
    c.depth < v.depth ∧ (v.Ordered → c.Ordered) := by
  cases v with
  | object ms =>
    have hmem := mem_of_lookup h
    exact ⟨Nat.lt_succ_of_le (depth_le_depthMembers hmem),
      fun hv => (ordered_object.1 hv).2 _ hmem⟩
  | _ => cases h

theorem Value.mem_names_operands_iff {kinds : List ElementKind} {v : Value} (hv : v.Ordered)
    {name : String} :
    name ∈ (v.operands kinds).map (fun m => m.1.localName) ↔
      ∃ k ∈ kinds, (v.child? k.localName).isSome ∧ k.localName = name := by
  simp only [List.mem_map, Prod.exists, mem_operands_iff hv, Option.isSome_iff_exists]
  constructor
  · rintro ⟨k, c, ⟨hk, hc⟩, rfl⟩
    exact ⟨k, hk, ⟨c, hc⟩, rfl⟩
  · rintro ⟨k, hk, ⟨c, hc⟩, rfl⟩
    exact ⟨k, c, ⟨hk, hc⟩, rfl⟩

/-- Operands under the same names come in the same order. -/
theorem Value.kinds_operands_eq {kinds : List ElementKind} {v w : Value} (hv : v.Ordered)
    (hw : w.Ordered)
    (h : ∀ k ∈ kinds, (v.child? k.localName).isSome = (w.child? k.localName).isSome) :
    (v.operands kinds).map Prod.fst = (w.operands kinds).map Prod.fst := by
  have hnames : (v.operands kinds).map (fun m => m.1.localName) =
      (w.operands kinds).map (fun m => m.1.localName) := by
    refine List.Pairwise.eq_of_mem_iff (List.pairwise_map.2 (operands_increase kinds hv))
      (List.pairwise_map.2 (operands_increase kinds hw)) fun name => ?_
    rw [mem_names_operands_iff hv, mem_names_operands_iff hw]
    refine exists_congr fun k => and_congr_right fun hk => ?_
    rw [h k hk]
  have hinjective : Function.Injective ElementKind.localName := fun _ _ =>
    ElementKind.localName_inj.1
  refine List.map_injective_iff.2 hinjective ?_
  rw [List.map_map, List.map_map]
  exact hnames

end Json

/-- Spellings of one another decode alike, provided that the first is of less depth than `n`. -/
def Respects (n : Nat) (p : Position) (decode : Decoder α) : Prop :=
  ∀ v w : Value, v.depth < n → v.Ordered → w.Ordered → Respelled p v w → decode v = decode w

variable {n : Nat}

theorem Respects.mono {m : Nat} {p : Position} {decode : Decoder α} (h : Respects n p decode)
    (hle : m ≤ n) : Respects m p decode :=
  fun v w hdepth => h v w (Nat.lt_of_lt_of_le hdepth hle)

theorem Respects.map {p : Position} {decode : Decoder α} (h : Respects n p decode) (f : α → β) :
    Respects n p fun v => (decode v).map f := by
  intro v w hdepth hv hw hspelled
  simp only [h v w hdepth hv hw hspelled]

/-- What can be written in one way only is the same. -/
theorem respects_atom (decode : Decoder α) : Respects n .atom decode := by
  intro v w _ _ _ h
  cases h
  rfl

theorem respects_error (p : Position) (e : DecodeError) :
    Respects n p fun _ => (.error e : Except DecodeError α) :=
  fun _ _ _ _ _ _ => rfl

/-- Null has no other spelling, so a child is left out in both or in none. -/
theorem Respects.optional {p : Position} {decode : Decoder α} (h : Respects n p decode) :
    Respects n p (Json.optional decode) := by
  intro v w hdepth hv hw hspelled
  by_cases hsame : v = w
  · rw [hsame]
  · have hne : v ≠ .null ∧ w ≠ .null := by
      cases hspelled with
      | same => exact absurd rfl hsame
      | list => exact ⟨nofun, nofun⟩
      | member => exact ⟨nofun, nofun⟩
      | record _ halike =>
        have hform := halike.form
        constructor <;> rintro rfl
        · cases hform
        · cases v <;> cases hform
    rw [optional_of_ne_null hne.1, optional_of_ne_null hne.2, h v w hdepth hv hw hspelled]

theorem Respects.list {item : Position} {decode : Decoder α} (h : Respects n item decode) :
    Respects n (.list item) (Json.list decode) := by
  intro v w hdepth hv hw hspelled
  cases hspelled with
  | same => rfl
  | list hlength hitems =>
    rw [list_array, list_array]
    refine mapM_congr_of_getElem? hlength fun i a b ha hb => ?_
    have hmem := List.mem_of_getElem? ha
    have hbelow := Nat.lt_succ_of_le (Value.depth_le_depthItems hmem)
    exact h a b (Nat.lt_trans hbelow hdepth) (Value.ordered_array.1 hv a hmem)
      (Value.ordered_array.1 hw b (List.mem_of_getElem? hb)) (hitems i a b ha hb)

/-- A member is spelled like its payload, which is one less deep. -/
theorem Respects.member {kinds : List ElementKind} {decodePayload : ElementKind → Decoder α}
    (h : ∀ k, Respects n (.element k) (decodePayload k)) :
    Respects (n + 1) (.member kinds) (decodeMember kinds decodePayload) := by
  intro v w hdepth hv hw hspelled
  cases hspelled with
  | same => rfl
  | @member _ k c d hkind hpayload =>
    rw [depth_variant] at hdepth
    rw [decodeMember_variant hkind, decodeMember_variant hkind]
    exact h k c d (Nat.lt_of_succ_lt_succ hdepth)
      ((Value.ordered_object.1 hv).2 _ List.mem_cons_self)
      ((Value.ordered_object.1 hw).2 _ List.mem_cons_self) hpayload

/-- Both values are spellings of a record with these fields and operands. -/
structure Spells (l : Layout) (entries : List Entry) (operands : List ElementKind) (v w : Value) :
    Prop where
  left : v.Ordered
  right : w.Ordered
  alike : Schema.AlikeWritten ⟨l, entries, operands⟩ v w
  fields : ∀ e ∈ entries, ∀ c d, l.field? e.key v = some c → l.field? e.key w = some d →
    Respelled e.position c d
  named : ∀ k ∈ operands, ∀ c d, v.child? k.localName = some c → w.child? k.localName = some d →
    Respelled (.element k) c d

theorem respects_record {k : ElementKind} {l : Layout} {entries : List Entry}
    {operands : List ElementKind} {decode : Decoder α}
    (hschema : k.schema? = some ⟨l, entries, operands⟩)
    (h : ∀ v w, v.depth < n → Spells l entries operands v w → decode v = decode w) :
    Respects n (.element k) decode := by
  intro v w hdepth hv hw hspelled
  cases hspelled with
  | same => rfl
  | record hother halike hfields hoperands =>
    obtain rfl := Option.some.inj (hschema.symm.trans hother)
    exact h v w hdepth ⟨hv, hw, halike, hfields, hoperands⟩

namespace Spells

variable {l : Layout} {entries : List Entry} {operands : List ElementKind} {v w : Value}
  (h : Spells l entries operands v w)

include h

theorem finish_eq (place : Place) (p : Partial α) : l.finish place v p = l.finish place w p :=
  Layout.AlikeFormed.finish_eq h.alike.form place p

theorem finishObject_eq (p : Partial α) : l.finishObject v p = l.finishObject w p :=
  Layout.AlikeFormed.finishObject_eq h.alike.form p

/-- A field comes to the same if what may stand for it does. -/
theorem field_eq {e : Entry} (he : e ∈ entries) (absent : Except DecodeError α) {decode : Decoder α}
    (hdecode : Respects v.depth e.position decode)
    (hstandIn : ∀ c ∈ e.standIn, ∃ a, absent = .ok a ∧ decode c = .ok a) :
    l.field e.key absent v (fun c _ => decode c) = l.field e.key absent w fun c _ => decode c := by
  have halike := h.alike.fields e he
  have hfields := h.fields e he
  rw [Layout.field_eq, Layout.field_eq]
  cases hv : l.field? e.key v with
  | none =>
    cases hw : l.field? e.key w with
    | none => rfl
    | some d =>
      rw [hv, hw] at halike
      obtain ⟨a, rfl, hd⟩ := hstandIn d halike
      simp only [hd, Partial.ofField]
  | some c =>
    cases hw : l.field? e.key w with
    | none =>
      rw [hv, hw] at halike
      obtain ⟨a, rfl, hc⟩ := hstandIn c halike
      simp only [hc, Partial.ofField]
    | some d =>
      have hsame := hdecode c d (Layout.depth_lt_of_field? hv) (Layout.ordered_of_field? h.left hv)
        (Layout.ordered_of_field? h.right hw) (hfields c d hv hw)
      simp only [hsame]

variable {key : String} {p : Position} {decode : Decoder α}

theorem required (i : Nat) (he : entries[i]? = some (.required key p))
    (hdecode : Respects v.depth p decode) : l.required v key decode = l.required w key decode := by
  have hfield := h.field_eq (List.mem_of_getElem? he) (.error (l.missing key v)) hdecode nofun
  rw [Layout.required, Layout.required, ← Layout.AlikeFormed.missing_eq h.alike.form]
  exact hfield

theorem defaulted (i : Nat) {c : Value} {default : α}
    (he : entries[i]? = some (.defaulted key p c)) (hdecode : Respects v.depth p decode)
    (hdefault : decode c = .ok default) :
    l.defaulted v key default decode = l.defaulted w key default decode := by
  refine h.field_eq (List.mem_of_getElem? he) (.ok default) hdecode fun d hd => ?_
  obtain rfl : c = d := Option.some.inj hd
  exact ⟨default, rfl, hdefault⟩

theorem optional (i : Nat) (he : entries[i]? = some (.optional key p))
    (hdecode : Respects v.depth p decode) : l.optional v key decode = l.optional w key decode :=
  h.defaulted i he hdecode.optional rfl

theorem list (i : Nat) (he : entries[i]? = some (.list key p))
    (hdecode : Respects v.depth p decode) :
    l.defaulted v key [] (Json.list decode) = l.defaulted w key [] (Json.list decode) :=
  h.defaulted i he hdecode.list rfl

theorem merged {decode : ElementKind → Decoder α} (choice : String)
    (hdecode : ∀ k, Respects v.depth (.element k) (decode k)) :
    Json.merged choice (ElementKind.tableOf operands) v decode =
      Json.merged choice (ElementKind.tableOf operands) w decode := by
  have hkinds := Value.kinds_operands_eq h.left h.right h.alike.operands
  rw [merged_eq_operands, merged_eq_operands]
  cases hv : v.operands operands with
  | nil =>
    rw [hv] at hkinds
    rw [List.map_eq_nil_iff.1 hkinds.symm]
  | cons m rest =>
    obtain ⟨k, c⟩ := m
    rw [hv] at hkinds
    obtain ⟨⟨k', d⟩, rest', hw, hsame, -⟩ := List.map_eq_cons_iff.1 hkinds.symm
    obtain rfl : k' = k := hsame
    obtain ⟨hk, hc⟩ := (Value.mem_operands_iff h.left).1 (hv ▸ List.mem_cons_self)
    obtain ⟨-, hd⟩ := (Value.mem_operands_iff h.right).1 (hw ▸ List.mem_cons_self)
    obtain ⟨hbelow, hordered⟩ := Value.below_of_child? hc
    have hdecoded := hdecode k' c d hbelow (hordered h.left) ((Value.below_of_child? hd).2 h.right)
      (h.named k' hk c d hc hd)
    rw [hw]
    simp only [List.head?_cons, hdecoded]

end Spells

theorem AttributeValue.respects (place : Place) :
    Respects n (.element .attributeValue) (decode place) := by
  refine respects_record rfl fun v w _ h => ?_
  have hdataType := h.required 0 rfl (respects_atom string)
  have hvalue := h.required 1 rfl (respects_atom string)
  rw [decode, decode, hdataType, hvalue, h.finish_eq]

/-- The fields that all designators have come first. -/
theorem Designator.fieldsOf_eq {l : Layout} (more : List Entry) {operands : List ElementKind}
    {v w : Value} (h : Spells l (Schema.designatorEntries ++ more) operands v w) :
    fieldsOf l v = fieldsOf l w := by
  have hid := h.required 0 rfl (respects_atom string)
  have hdataType := h.required 1 rfl (respects_atom string)
  have hissuer := h.optional 2 rfl (respects_atom string)
  have hpresent := h.defaulted 3 rfl (respects_atom bool) rfl
  rw [fieldsOf, fieldsOf, hid, hdataType, hissuer, hpresent]

theorem Designator.respects {k : ElementKind} (hk : k.schema? = some Schema.designator)
    (place : Place) : Respects n (.element k) (decode place) := by
  refine respects_record hk fun v w _ h => ?_
  have hfields := fieldsOf_eq [] h
  rw [decode, decode, hfields, h.finish_eq]

theorem SubjectDesignator.respects (place : Place) :
    Respects n (.element .subjectAttributeDesignator) (decode place) := by
  refine respects_record rfl fun v w _ h => ?_
  have hfields := Designator.fieldsOf_eq _ h
  have hcategory := h.defaulted 4 rfl (respects_atom string) rfl
  rw [decode, decode, hfields, hcategory, h.finish_eq]

theorem Selector.respects (place : Place) :
    Respects n (.element .attributeSelector) (decode place) := by
  refine respects_record rfl fun v w _ h => ?_
  have hpath := h.required 0 rfl (respects_atom string)
  have hdataType := h.required 1 rfl (respects_atom string)
  have hpresent := h.defaulted 2 rfl (respects_atom bool) rfl
  rw [decode, decode, hpath, hdataType, hpresent, h.finish_eq]

theorem AttributeSource.respects_payload (place : Place) (k : ElementKind) :
    Respects n (.element k) (decodePayload place k) := by
  cases k with
  | subjectAttributeDesignator => exact (SubjectDesignator.respects place).map subjectDesignator
  | resourceAttributeDesignator => exact (Designator.respects rfl place).map resourceDesignator
  | actionAttributeDesignator => exact (Designator.respects rfl place).map actionDesignator
  | environmentAttributeDesignator => exact (Designator.respects rfl place).map environmentDesignator
  | attributeSelector => exact (Selector.respects place).map selector
  | _ => exact respects_error _ _

namespace Expression

theorem respects_of_map {place : Place} {k : ElementKind} {p : Position} {decode : Decoder α}
    {f : α → Expression} (h : Respects n p decode)
    (hdecode : ∀ v, decodePayload place k v = (decode v).map f) :
    Respects n p (decodePayload place k) := by
  rw [funext hdecode]
  exact h.map f

theorem respects_payload (place : Place) (k : ElementKind) :
    Respects n (.element k) (decodePayload place k) := by
  induction n generalizing k with
  | zero => exact fun v w hv => absurd hv (Nat.not_lt_zero _)
  | succ n ih =>
    cases k with
    | apply =>
      refine respects_record rfl fun v w hdepth h => ?_
      -- An argument is a member, which is one deeper than its payload, and stands below the call.
      have harguments : Respects v.depth (.member kinds) (decode place) :=
        (Respects.member ih).mono (Nat.le_of_lt hdepth)
      have hfunction := h.required 0 rfl (respects_atom string)
      have hcontent := h.list 1 rfl harguments
      rw [decodePayload_apply, decodePayload_apply, hfunction, hcontent, h.finish_eq]
    | function =>
      refine respects_record rfl fun v w _ h => ?_
      have hfunction := h.required 0 rfl (respects_atom string)
      rw [decodePayload, decodePayload, hfunction, h.finish_eq]
    | variableReference =>
      refine respects_record rfl fun v w _ h => ?_
      have hvariable := h.required 0 rfl (respects_atom string)
      rw [decodePayload, decodePayload, hvariable, h.finish_eq]
    | subjectAttributeDesignator =>
      exact respects_of_map (SubjectDesignator.respects place) fun v => by rw [decodePayload]
    | resourceAttributeDesignator | actionAttributeDesignator | environmentAttributeDesignator =>
      exact respects_of_map (Designator.respects rfl place) fun v => by rw [decodePayload]
    | attributeSelector =>
      exact respects_of_map (Selector.respects place) fun v => by rw [decodePayload]
    | attributeValue =>
      exact respects_of_map (AttributeValue.respects place) fun v => by rw [decodePayload]
    | _ =>
      -- Other kinds are refused unseen.
      intro v w _ _ _ _
      rw [decodePayload, decodePayload]
      all_goals nofun

theorem respects (place : Place) : Respects n (.member kinds) (decode place) :=
  (Respects.member (respects_payload place)).mono (Nat.le_succ n)

end Expression

theorem TargetMatch.respects {k : ElementKind} (hk : k.schema? = some Schema.targetMatch) :
    Respects n (.element k) decode := by
  refine respects_record hk fun v w _ h => ?_
  have hmatch := h.required 0 rfl (respects_atom string)
  have hvalue := h.required 1 rfl (AttributeValue.respects .standing)
  have hsource := h.merged "MatchSource" (AttributeSource.respects_payload .merged)
  rw [decode, decode, hmatch, hvalue, hsource, h.finishObject_eq]

theorem respects_listRecord {k item : ElementKind}
    (hk : k.schema? = some (Schema.listRecord k item)) {decode : Decoder α}
    (h : ∀ n, Respects n (.element item) decode) :
    Respects n (.element k) (decodeListRecord k item decode) := by
  refine respects_record hk fun v w _ hspells => ?_
  have hitems := hspells.required 0 rfl (h v.depth).list
  rw [decodeListRecord, decodeListRecord, hitems, hspells.finish_eq]

theorem allOf_respects (c : Category) : Respects n (.element c.allOf) (decodeAllOf c) :=
  respects_listRecord (by cases c <;> rfl) fun _ => TargetMatch.respects (by cases c <;> rfl)

theorem anyOf_respects (c : Category) : Respects n (.element c.anyOf) (decodeAnyOf c) :=
  respects_listRecord (by cases c <;> rfl) fun _ => allOf_respects c

theorem Target.respects : Respects n (.element .target) decode := by
  refine respects_record rfl fun v w _ h => ?_
  have hsubjects := h.optional 0 rfl (anyOf_respects .subject)
  have hresources := h.optional 1 rfl (anyOf_respects .resource)
  have hactions := h.optional 2 rfl (anyOf_respects .action)
  have henvironments := h.optional 3 rfl (anyOf_respects .environment)
  rw [decode, decode, hsubjects, hresources, hactions, henvironments, h.finish_eq]

theorem Defaults.respects {k : ElementKind} (hk : k.schema? = some Schema.defaults) :
    Respects n (.element k) decode := by
  refine respects_record hk fun v w _ h => ?_
  have hversion := h.required 0 rfl (respects_atom string)
  rw [decode, decode, hversion, h.finish_eq]

theorem AttributeAssignment.respects : Respects n (.element .attributeAssignment) decode := by
  refine respects_record rfl fun v w _ h => ?_
  have hdataType := h.required 0 rfl (respects_atom string)
  have hid := h.required 1 rfl (respects_atom string)
  have hvalue := h.required 2 rfl (respects_atom string)
  rw [decode, decode, hdataType, hid, hvalue, h.finish_eq]

theorem Obligation.respects : Respects n (.element .obligation) decode := by
  refine respects_record rfl fun v w _ h => ?_
  have hid := h.required 0 rfl (respects_atom string)
  have heffect := h.required 1 rfl (respects_atom Effect.decode)
  have hassignments := h.list 2 rfl AttributeAssignment.respects
  rw [decode, decode, hid, heffect, hassignments, h.finish_eq]

theorem obligations_respects : Respects n (.element .obligations) decodeObligations :=
  respects_listRecord rfl fun _ => Obligation.respects

theorem CombinerParameter.respects : Respects n (.element .combinerParameter) decode := by
  refine respects_record rfl fun v w _ h => ?_
  have hname := h.required 0 rfl (respects_atom string)
  have hvalue := h.required 1 rfl (AttributeValue.respects .standing)
  rw [decode, decode, hname, hvalue, h.finish_eq]

theorem parameters_respects : Respects n (.element .combinerParameters) decodeParameters := by
  refine respects_record rfl fun v w _ h => ?_
  have hparameters := h.list 0 rfl CombinerParameter.respects
  rw [decodeParameters, decodeParameters, parametersOf, parametersOf, hparameters, h.finish_eq]

theorem scoped_respects (s : ParameterScope) : Respects n (.element s.kind) (decodeScoped s) := by
  have hschema : s.kind.schema? = some (Schema.scopedParameters s) := by cases s <;> rfl
  refine respects_record hschema fun v w _ h => ?_
  have hid := h.required 0 rfl (respects_atom string)
  have hparameters := h.list 1 rfl CombinerParameter.respects
  rw [decodeScoped, decodeScoped, parametersOf, parametersOf, hid, hparameters, h.finish_eq]

theorem VariableDefinition.respects : Respects n (.element .variableDefinition) decode := by
  refine respects_record rfl fun v w _ h => ?_
  have hid := h.required 0 rfl (respects_atom string)
  have hexpression := h.merged "Expression" (Expression.respects_payload .merged)
  rw [decode, decode, hid, hexpression, h.finishObject_eq]

theorem Rule.respects : Respects n (.element .rule) decode := by
  refine respects_record rfl fun v w _ h => ?_
  have hid := h.required 0 rfl (respects_atom string)
  have heffect := h.required 1 rfl (respects_atom Effect.decode)
  have hdescription := h.optional 2 rfl (respects_atom string)
  have htarget := h.optional 3 rfl Target.respects
  have hcondition := h.optional 4 rfl (Expression.respects .standing)
  rw [decode, decode, hid, heffect, hdescription, htarget, hcondition, h.finish_eq]

theorem PolicyMember.respects_payload (k : ElementKind) :
    Respects n (.element k) (decodePayload k) := by
  cases k with
  | combinerParameters => exact parameters_respects.map parameters
  | ruleCombinerParameters => exact (scoped_respects .rule).map ruleParameters
  | variableDefinition => exact VariableDefinition.respects.map PolicyMember.variable
  | rule => exact Rule.respects.map rule
  | _ => exact respects_error _ _

theorem PolicyMember.respects : Respects n (.member kinds) decode :=
  (Respects.member respects_payload).mono (Nat.le_succ n)

theorem Policy.respects : Respects n (.element .policy) decode := by
  refine respects_record rfl fun v w _ h => ?_
  have hid := h.required 0 rfl (respects_atom string)
  have hversion := h.defaulted 1 rfl (respects_atom string) rfl
  have halgorithm := h.required 2 rfl (respects_atom string)
  have hdescription := h.optional 3 rfl (respects_atom string)
  have hdefaults := h.optional 4 rfl (Defaults.respects rfl)
  have hparameters := h.optional 5 rfl parameters_respects
  have htarget := h.optional 6 rfl Target.respects
  have hcontent := h.list 7 rfl PolicyMember.respects
  have hobligations := h.optional 8 rfl obligations_respects
  rw [decode, decode, hid, hversion, halgorithm, hdescription, hdefaults, hparameters, htarget,
    hcontent, hobligations, h.finish_eq]

theorem IdReference.respects {k : ElementKind} (hk : k.schema? = some Schema.reference) :
    Respects n (.element k) decode := by
  refine respects_record hk fun v w _ h => ?_
  have hvalue := h.required 0 rfl (respects_atom string)
  have hversion := h.optional 1 rfl (respects_atom string)
  have hearliest := h.optional 2 rfl (respects_atom string)
  have hlatest := h.optional 3 rfl (respects_atom string)
  rw [decode, decode, hvalue, hversion, hearliest, hlatest, h.finish_eq]

/-- Members of a set respect spelling if the sets among them do. -/
theorem SetMember.respects_payload (hset : Respects n (.element .policySet) PolicySet.decode)
    (k : ElementKind) :
    Respects n (.element k) fun v => decodePayload (fun _ => PolicySet.decode v) k v := by
  cases k with
  | policySet => exact hset.map policySet
  | policy => exact Policy.respects.map policy
  | policySetIdReference => exact (IdReference.respects rfl).map (reference .policySet)
  | policyIdReference => exact (IdReference.respects rfl).map (reference .policy)
  | combinerParameters => exact parameters_respects.map parameters
  | policyCombinerParameters => exact (scoped_respects .policy).map policyParameters
  | policySetCombinerParameters => exact (scoped_respects .policySet).map setParameters
  | _ => exact respects_error _ _

namespace PolicySet

/-- Spellings of a policy set decode alike, or fail alike. -/
theorem respects : Respects n (.element .policySet) decode := by
  induction n with
  | zero => exact fun v w hv => absurd hv (Nat.not_lt_zero _)
  | succ n ih =>
    refine respects_record rfl fun v w hdepth h => ?_
    have hmembers : Respects v.depth (.member SetMember.kinds) SetMember.decode :=
      (Respects.member (SetMember.respects_payload ih)).mono (Nat.le_of_lt hdepth)
    have hid := h.required 0 rfl (respects_atom string)
    have hversion := h.defaulted 1 rfl (respects_atom string) rfl
    have halgorithm := h.required 2 rfl (respects_atom string)
    have hdescription := h.optional 3 rfl (respects_atom string)
    have hdefaults := h.optional 4 rfl (Defaults.respects rfl)
    have htarget := h.optional 5 rfl Target.respects
    have hcontent := h.list 6 rfl hmembers
    have hobligations := h.optional 7 rfl obligations_respects
    rw [decode_eq, decode_eq, fieldsOf, fieldsOf, hid, hversion, halgorithm, hdescription, hdefaults,
      htarget, hcontent, hobligations, h.finish_eq]

end PolicySet

end AccessPolicy
