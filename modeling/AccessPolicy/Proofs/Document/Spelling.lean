import AccessPolicy.Proofs.Document.Elements
import AccessPolicy.Proofs.Document.ExpectedKind
import AccessPolicy.Proofs.Grammar.Spelling

namespace AccessPolicy

open Json

/-- The bytes are a JSON text of the value, within the limit of nesting. -/
def IsText (bytes : List UInt8) (v : Value) : Prop :=
  ∃ cs, Text.Utf8.decode bytes = (cs, []) ∧ Json.read cs = some v

/-- What a text of the value is read as where an object is expected. -/
def Json.Value.membersOf : Value → Except ReadError (List (String × Value))
  | .object ms => .ok ms
  | v => .error (.undecodable (.invalidType v.shape "a map"))

namespace IsText

variable {bytes : List UInt8} {v : Value}

theorem ordered (h : IsText bytes v) : v.Ordered := by
  obtain ⟨cs, -, hread⟩ := h
  exact (Reader.ordered_of_run hread).1

theorem readMembers_eq (h : IsText bytes v) : readMembers bytes = v.membersOf := by
  obtain ⟨cs, hdecode, hread⟩ := h
  obtain ⟨-, w, hbeginning, hshape⟩ := Reader.ordered_of_run hread
  rw [Json.read, readWithin] at hread
  simp only [readMembers, hdecode, hbeginning, hread]
  cases w <;> cases v <;> cases hshape <;> rfl

end IsText

theorem isText_text {v : Value} (hlegible : v.Legible) (hdepth : v.depth ≤ Reader.maxDepth) :
    IsText (Text.Utf8.encode v.text.toList) v.sorted := by
  refine ⟨v.chars, ?_, Value.readWithin_chars hlegible hdepth⟩
  rw [Text.Utf8.decode_encode, Value.toList_text]

/-- Both objects have members of the same names, and what stands under the name of an element may be
spelled in two ways. -/
structure RespelledMembers (ms ns : List (String × Value)) : Prop where
  names : ∀ name, (member? name ms).isSome = (member? name ns).isSome
  bodies : ∀ name v w, member? name ms = some v → member? name ns = some w →
    v = w ∨ ∃ k : ElementKind, k.localName = name ∧ Respelled (.element k) v w

/-- Both values are spellings of one document. -/
inductive RespelledDocument : Value → Value → Prop
  | same (v : Value) : RespelledDocument v v
  | object {ms ns : List (String × Value)} (h : RespelledMembers ms ns) :
    RespelledDocument (.object ms) (.object ns)

/-- Envelopes of two spellings of an element are spellings of one document. -/
theorem respelled_envelope {k : ElementKind} {v w : Value}
    (h : Respelled (.element k) v.sorted w.sorted) :
    RespelledDocument
      (Value.object [("xmlns", .string policyNamespace), (k.localName, v)]).sorted
      (Value.object [("xmlns", .string policyNamespace), (k.localName, w)]).sorted := by
  refine .object ⟨fun name => ?_, fun name c d hc hd => ?_⟩
  · rw [lookup_sorted, lookup_sorted]
    by_cases hname : name = k.localName <;> simp [hname]
  · rw [lookup_sorted] at hc hd
    by_cases hname : name = k.localName
    · obtain rfl : v.sorted = c := by simpa [hname] using hc
      obtain rfl : w.sorted = d := by simpa [hname] using hd
      exact .inr ⟨k, hname.symm, h⟩
    · refine .inl (Option.some.inj ?_)
      rw [← hc, ← hd]
      simp [hname]

namespace RespelledMembers

variable {ms ns : List (String × Value)}

/-- The namespace is no element, so it is given in one way. -/
theorem namespace_eq (h : RespelledMembers ms ns) : member? "xmlns" ms = member? "xmlns" ns := by
  have hnames := h.names "xmlns"
  cases hv : member? "xmlns" ms with
  | none =>
    rw [hv] at hnames
    exact (Option.not_isSome_iff_eq_none.1 (hnames ▸ Bool.false_ne_true)).symm
  | some v =>
    rw [hv] at hnames
    obtain ⟨w, hw⟩ := Option.isSome_iff_exists.1 hnames.symm
    obtain rfl | ⟨k, hk, -⟩ := h.bodies _ _ _ hv hw
    · exact hw.symm
    · exact absurd hk k.localName_ne_xmlns

/-- Either both name the namespace, and the others have the same names, or neither does. -/
theorem checkNamespace_cases (hms : KeysIncrease ms) (hns : KeysIncrease ns)
    (h : RespelledMembers ms ns) :
    (∃ e, checkNamespace ms = .error e ∧ checkNamespace ns = .error e) ∨
      ∃ ms' ns', checkNamespace ms = .ok ms' ∧ checkNamespace ns = .ok ns' ∧ ms' ⊆ ms ∧ ns' ⊆ ns ∧
        ms'.map Prod.fst = ns'.map Prod.fst := by
  have hothers := congrArg (List.filter fun name => name ≠ "xmlns")
    (keys_eq_of_isSome hms hns h.names)
  rw [List.filter_map, List.filter_map] at hothers
  unfold checkNamespace
  rw [h.namespace_eq]
  split
  · exact .inl ⟨_, rfl, rfl⟩
  · split
    · exact .inr ⟨_, _, rfl, rfl, List.filter_subset_self _, List.filter_subset_self _, hothers⟩
    · exact .inl ⟨_, rfl, rfl⟩
  · exact .inl ⟨_, rfl, rfl⟩

end RespelledMembers

theorem ArtifactKind.name_of_ofName? {name : String} {kind : ArtifactKind}
    (h : ofName? name = some kind) : name = kind.name := by
  have hmem := mem_of_lookup h
  simp only [table, List.mem_cons, Prod.mk.injEq, List.not_mem_nil, or_false] at hmem
  obtain ⟨rfl, rfl⟩ | ⟨rfl, rfl⟩ := hmem <;> rfl

/-- Members with the same names have a root of the same name, or none for the same reason. -/
theorem findRoot_cases {ms ns : List (String × Value)}
    (hnames : ms.map Prod.fst = ns.map Prod.fst) :
    (∃ e, findRoot ms = .error e ∧ findRoot ns = .error e) ∨
      ∃ kind : ArtifactKind, ∃ v w, ms = [(kind.name, v)] ∧ ns = [(kind.name, w)] := by
  match ms, ns, hnames with
  | [], [], _ => exact .inl ⟨_, rfl, rfl⟩
  | [(name, v)], [(_, w)], hname =>
    obtain rfl := List.singleton_inj.1 hname
    cases hkind : ArtifactKind.ofName? name with
    | none =>
      simp only [findRoot, hkind]
      split <;> exact .inl ⟨_, rfl, rfl⟩
    | some kind =>
      obtain rfl := ArtifactKind.name_of_ofName? hkind
      exact .inr ⟨kind, v, w, rfl, rfl⟩
  | _ :: _ :: _, _ :: _ :: _, _ => exact .inl ⟨_, rfl, rfl⟩

namespace PolicyDocument

theorem decodeRoot_respelled {kind : ArtifactKind} {k : ElementKind} {v w : Value}
    (hname : k.localName = kind.name) (hv : v.Ordered) (hw : w.Ordered)
    (h : Respelled (.element k) v w) : decodeRoot kind v = decodeRoot kind w := by
  cases kind with
  | policy =>
    obtain rfl : k = .policy := ElementKind.localName_inj.1 hname
    exact Policy.respects.map policy v w (Nat.lt_succ_self _) hv hw h
  | policySet =>
    obtain rfl : k = .policySet := ElementKind.localName_inj.1 hname
    exact PolicySet.respects.map policySet v w (Nat.lt_succ_self _) hv hw h

variable {bytes bytes' : List UInt8} {ms ns : List (String × Value)}

theorem readUnder_respelled (hms : (Value.object ms).Ordered) (hns : (Value.object ns).Ordered)
    (h : RespelledMembers ms ns) {kind : ArtifactKind} {v w : Value} (hv : (kind.name, v) ∈ ms)
    (hw : (kind.name, w) ∈ ns) : readUnder kind v = readUnder kind w := by
  obtain ⟨hmkeys, hmbodies⟩ := Value.ordered_object.1 hms
  obtain ⟨hnkeys, hnbodies⟩ := Value.ordered_object.1 hns
  obtain rfl | ⟨k, hname, hspelled⟩ := h.bodies kind.name v w ((member?_eq_some_iff hmkeys).2 hv)
    ((member?_eq_some_iff hnkeys).2 hw)
  · rfl
  · rw [readUnder, readUnder, decodeRoot_respelled hname (hmbodies _ hv) (hnbodies _ hw) hspelled]

theorem readRoot_cases (hms : IsText bytes (.object ms)) (hns : IsText bytes' (.object ns))
    (h : RespelledMembers ms ns) :
    (∃ e, readRoot bytes = .error e ∧ readRoot bytes' = .error e) ∨
      ∃ kind v w, readRoot bytes = .ok (kind, v) ∧ readRoot bytes' = .ok (kind, w) ∧
        readUnder kind v = readUnder kind w := by
  obtain ⟨hmkeys, -⟩ := Value.ordered_object.1 hms.ordered
  obtain ⟨hnkeys, -⟩ := Value.ordered_object.1 hns.ordered
  rw [readRoot, readRoot, hms.readMembers_eq, hns.readMembers_eq]
  obtain ⟨e, hleft, hright⟩ | ⟨ms', ns', hleft, hright, hms', hns', hnames⟩ :=
    h.checkNamespace_cases hmkeys hnkeys
  · refine .inl ⟨.schema e, ?_⟩
    simp only [Value.membersOf, mapError_ok, Bind.bind, Except.bind, hleft, hright]
    exact ⟨rfl, rfl⟩
  · simp only [Value.membersOf, mapError_ok, Bind.bind, Except.bind, hleft, hright]
    obtain ⟨e, hleft, hright⟩ | ⟨kind, v, w, rfl, rfl⟩ := findRoot_cases hnames
    · refine .inl ⟨.schema e, ?_⟩
      rw [hleft, hright]
      exact ⟨rfl, rfl⟩
    · have hv := hms' (List.mem_singleton_self _)
      have hw := hns' (List.mem_singleton_self _)
      refine .inr ⟨kind, v, w, ?_⟩
      rw [findRoot_singleton, findRoot_singleton]
      exact ⟨rfl, rfl, readUnder_respelled hms.ordered hns.ordered h hv hw⟩

/-- Texts of spellings of one document are read alike, whichever kind is expected. -/
theorem read_respelled {v w : Value} (hv : IsText bytes v) (hw : IsText bytes' w)
    (h : RespelledDocument v w) (expected : Option ArtifactKind) :
    read expected bytes = read expected bytes' := by
  cases h with
  | same => rw [read, read, hv.readMembers_eq, hw.readMembers_eq]
  | object h =>
    rw [read_eq, read_eq]
    obtain ⟨e, hleft, hright⟩ | ⟨kind, c, d, hleft, hright, hsame⟩ := readRoot_cases hv hw h
    · rw [hleft, hright]
    · rw [hleft, hright]
      simp only [bind, Except.bind, hsame]

end PolicyDocument

end AccessPolicy
