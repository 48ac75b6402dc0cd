import AccessPolicy.Grammar.Decode
import AccessPolicy.Proofs.Json.Record

namespace AccessPolicy

open Json

namespace ElementKind

theorem ofLocalName?_localName (k : ElementKind) : ofLocalName? k.localName = some k := by
  have hall : ∀ k ∈ all, ofLocalName? k.localName = some k := by decide +kernel
  exact hall k (mem_all k)

theorem localName_inj {k l : ElementKind} : k.localName = l.localName ↔ k = l := by
  constructor
  · intro h
    have hk := ofLocalName?_localName k
    rw [h, ofLocalName?_localName] at hk
    exact (Option.some.inj hk).symm
  · rintro rfl
    rfl

theorem lookup_tableOf_eq_some {kinds : List ElementKind} {k : ElementKind} (h : k ∈ kinds) :
    (tableOf kinds).lookup k.localName = some k := by
  induction kinds with
  | nil => simp at h
  | cons l kinds ih =>
    rw [tableOf, List.map_cons, List.lookup_cons]
    by_cases heq : k = l
    · simp [heq]
    · have hne : (k.localName == l.localName) = false :=
        beq_eq_false_iff_ne.2 fun hname => heq (localName_inj.1 hname)
      rw [hne]
      exact ih ((List.mem_cons.1 h).resolve_left heq)

theorem lookup_tableOf_eq_some_iff {kinds : List ElementKind} {name : String} {k : ElementKind} :
    (tableOf kinds).lookup name = some k ↔ k ∈ kinds ∧ name = k.localName := by
  constructor
  · intro h
    obtain ⟨l, hl, hpair⟩ := List.mem_map.1 (mem_of_lookup h)
    obtain ⟨rfl, rfl⟩ := Prod.mk.inj hpair
    exact ⟨hl, rfl⟩
  · rintro ⟨hk, rfl⟩
    exact lookup_tableOf_eq_some hk

theorem lookup_tableOf_eq_none {kinds : List ElementKind} {name : String}
    (h : ∀ k ∈ kinds, k.localName ≠ name) : (tableOf kinds).lookup name = none := by
  rw [List.lookup_eq_none_iff]
  intro m hm
  obtain ⟨k, hk, rfl⟩ := List.mem_map.1 hm
  simpa using Ne.symm (h k hk)

end ElementKind

open ElementKind

theorem sorted_variant (tag : String) (payload : Value) :
    (variant tag payload).sorted = .object [(tag, payload.sorted)] := by
  simp [variant, Value.sorted, Value.sortedMembers, sortMembers]

/-- A payload under the name of its kind is read as such. -/
theorem member_denotes {kinds : List ElementKind} (k : ElementKind) {tag : String}
    {payload : Value} {decodePayload : ElementKind → Decoder α} {a : α} (htag : tag = k.localName)
    (hkind : k ∈ kinds) (h : payload.Denotes (decodePayload k) a) :
    (variant tag payload).Denotes (decodeMember kinds decodePayload) a := by
  subst htag
  constructor
  · simpa [variant, Value.legible_object] using h.legible
  · rw [sorted_variant, decodeMember, tagged, pick, lookup_tableOf_eq_some hkind]
    exact h.decode_sorted

theorem findSome?_eq_some_of_forall {f : α → Option β} {as : List α} {b : β}
    (hsome : ∃ a ∈ as, f a = some b) (hall : ∀ a ∈ as, f a = none ∨ f a = some b) :
    as.findSome? f = some b := by
  induction as with
  | nil => simp at hsome
  | cons a as ih =>
    rw [List.findSome?_cons]
    rcases hall a List.mem_cons_self with hnone | hb
    · rw [hnone]
      obtain ⟨c, hc, hfound⟩ := hsome
      rcases List.mem_cons.1 hc with rfl | hc
      · simp [hnone] at hfound
      · exact ih ⟨c, hc, hfound⟩ fun d hd => hall d (List.mem_cons_of_mem a hd)
    · rw [hb]

/-- A payload that stands last among the fields of a record, under the name of its kind, is found
there, provided that no other field bears the name of a kind that is looked for. -/
theorem merged_of_last {choice : String} {kinds : List ElementKind} {k : ElementKind}
    {tag : String} {payload : Value} {decodePayload : ElementKind → Decoder α} {a : α}
    {ms : List (String × Value)} (htag : tag = k.localName) (hkind : k ∈ kinds)
    (hothers : ∀ m ∈ ms, ∀ l ∈ kinds, l.localName ≠ m.1)
    (h : payload.Denotes (decodePayload k) a) :
    merged choice (tableOf kinds) (Value.object (ms ++ [(tag, payload)])).sorted
      decodePayload = pure a := by
  subst htag
  have hlast : member? k.localName
      (sortMembers (Value.sortedMembers (ms ++ [(k.localName, payload)])).reverse) =
        some payload.sorted := by
    rw [lookup_sorted]
    simp
  have hfound : (sortMembers (Value.sortedMembers (ms ++ [(k.localName, payload)])).reverse).findSome?
      (fun m => ((tableOf kinds).lookup m.1).map fun b => (b, m.2)) = some (k, payload.sorted) := by
    apply findSome?_eq_some_of_forall
    · refine ⟨_, mem_of_lookup hlast, ?_⟩
      simp [lookup_tableOf_eq_some hkind]
    · intro m hm
      have hmem := mem_of_mem_sortMembers hm
      rw [List.mem_reverse, Value.sortedMembers_eq_map] at hmem
      obtain ⟨n, hn, rfl⟩ := List.mem_map.1 hmem
      rcases List.mem_append.1 hn with hn | hn
      · left
        simp [lookup_tableOf_eq_none (hothers n hn)]
      · right
        obtain rfl := List.mem_singleton.1 hn
        simp [lookup_tableOf_eq_some hkind]
  rw [Value.sorted, merged, hfound]
  simp only [h.decode_sorted]
  rfl

end AccessPolicy
