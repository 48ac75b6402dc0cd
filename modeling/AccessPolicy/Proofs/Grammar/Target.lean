import AccessPolicy.Proofs.Grammar.Expression

namespace AccessPolicy

open Json

theorem TargetMatch.denotes (m : TargetMatch) : m.encode.Denotes TargetMatch.decode m := by
  have hvalue := AttributeValue.denotes .standing m.value
  have hsource := AttributeSource.payload_denotes .merged m.source
  constructor
  · simp [encode, Value.legible_object, hvalue.legible, hsource.legible]
  · have hname : ∀ k ∈ AttributeSource.kinds, k.localName ≠ "MatchId" ∧
        k.localName ≠ "AttributeValue" := by decide
    have hmember : m.source.tag ≠ "MatchId" ∧ m.source.tag ≠ "AttributeValue" := by
      rw [m.source.tag_eq]
      exact hname _ m.source.kind_mem_kinds
    rw [encode, decode, Layout.required_of_last "MatchId" ?_ (denotes_string m.matchId),
      Layout.required_of_last "AttributeValue" ?_ hvalue,
      merged_of_last m.source.tag_eq m.source.kind_mem_kinds ?_ hsource]
    · rfl
    · intro field hfield k hk
      simp only [textField, List.singleton_append, List.mem_cons, List.not_mem_nil,
        or_false] at hfield
      rcases hfield with rfl | rfl
      · exact (hname k hk).1
      · exact (hname k hk).2
    · simp [Ne.symm hmember.2]
    · simp [Ne.symm hmember.1]

/-- A record with one list denotes the list. -/
theorem listRecord_denotes (k item : ElementKind) {encode : α → Value} {decode : Decoder α}
    {as : List α} (h : ∀ a ∈ as, (encode a).Denotes decode a) :
    (Value.object [(item.localName, .array (as.map encode))]).Denotes
      (decodeListRecord k item decode) as := by
  have hlist := denotes_list h
  constructor
  · simpa [Value.legible_object] using hlist.legible
  · rw [decodeListRecord, Layout.required_of_last item.localName ?_ hlist]
    · rfl
    · simp

theorem allOf_denotes (c : Category) (ms : AllOf) :
    (encodeAllOf c ms).Denotes (decodeAllOf c) ms :=
  listRecord_denotes c.allOf c.targetMatch fun m _ => m.denotes

theorem anyOf_denotes (c : Category) (alternatives : AnyOf) :
    (encodeAnyOf c alternatives).Denotes (decodeAnyOf c) alternatives :=
  listRecord_denotes c.anyOf c.allOf fun ms _ => allOf_denotes c ms

theorem anyOf_denotes_child (c : Category) (child : Option AnyOf) : ∀ a ∈ child,
    (encodeAnyOf c a).Denotes (decodeAnyOf c) a ∧ (encodeAnyOf c a).sorted ≠ .null :=
  fun a _ => ⟨anyOf_denotes c a, sorted_object_ne_null _⟩

/-- A target is read again from what is written for it. -/
theorem Target.denotes (t : Target) : t.encode.Denotes Target.decode t := by
  constructor
  · simp [encode, Value.legible_object, (anyOf_denotes _ _).legible]
  · rw [encode, decode,
      Layout.optional_of_last "Subjects" ?_ (anyOf_denotes_child .subject t.subjects),
      Layout.optional_of_last "Resources" ?_ (anyOf_denotes_child .resource t.resources),
      Layout.optional_of_last "Actions" ?_ (anyOf_denotes_child .action t.actions),
      Layout.optional_of_last "Environments" ?_ (anyOf_denotes_child .environment t.environments)]
    · rfl
    all_goals simp

theorem Target.denotes_child (child : Option Target) : ∀ t ∈ child,
    t.encode.Denotes Target.decode t ∧ t.encode.sorted ≠ .null :=
  fun t _ => ⟨t.denotes, sorted_object_ne_null _⟩

end AccessPolicy
