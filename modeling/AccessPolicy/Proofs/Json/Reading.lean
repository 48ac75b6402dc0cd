import AccessPolicy.Json.Reader
import AccessPolicy.Proofs.Json.Order
import AccessPolicy.Proofs.Json.Tokens

namespace AccessPolicy.Json

mutual

/-- A value as it is read from its text. Of several members with one key the last counts. -/
def Value.sorted : Value → Value
  | .array items => .array (sortedItems items)
  | .object members => .object (sortMembers (sortedMembers members).reverse)
  | v => v

def Value.sortedItems : List Value → List Value
  | [] => []
  | v :: vs => v.sorted :: sortedItems vs

def Value.sortedMembers : List (String × Value) → List (String × Value)
  | [] => []
  | (key, v) :: ms => (key, v.sorted) :: sortedMembers ms

end

theorem Value.sortedItems_eq_map (vs : List Value) : sortedItems vs = vs.map sorted := by
  induction vs with
  | nil => simp [sortedItems]
  | cons v vs ih => simp [sortedItems, ih]

theorem Value.sortedMembers_eq_map (ms : List (String × Value)) :
    sortedMembers ms = ms.map fun m => (m.1, m.2.sorted) := by
  induction ms with
  | nil => simp [sortedMembers]
  | cons m ms ih => simp [sortedMembers, ih]

theorem Value.sorted_single (key : String) (v : Value) :
    (Value.object [(key, v)]).sorted = .object [(key, v.sorted)] := by
  simp [sorted, sortedMembers, sortMembers]

namespace Reader

theorem run_cons {limit : Nat} {r s : Reader} {t : Token} (h : step limit r t = some s)
    (tokens : List Token) : run limit r (t :: tokens) = run limit s tokens := by
  simp [run, h]

end Reader

/-- Where the first item of an array may stand, a value is read as an item. -/
theorem Value.run_firstItem {limit : Nat} {frames : List Frame} (v : Value) (rest : List Token) :
    Reader.run limit ⟨frames, .firstItem⟩ (v.tokens ++ rest) =
      Reader.run limit ⟨.array [] :: frames, .value⟩ (v.tokens ++ rest) := by
  rcases v with _ | _ | _ | _ | (_ | ⟨v, vs⟩) | (_ | ⟨⟨key, v⟩, ms⟩) <;> rfl

mutual

theorem Value.run_tokens (limit : Nat) (frames : List Frame) (rest : List Token) : (v : Value) →
    frames.length + v.depth ≤ limit →
    Reader.run limit ⟨frames, .value⟩ (v.tokens ++ rest) =
      Reader.run limit (Reader.deliver v.sorted frames) rest
  | .null, _ => rfl
  | .bool _, _ => rfl
  | .number _, _ => rfl
  | .string _, _ => rfl
  | .array [], h => by
    simp only [depth, depthItems] at h
    rw [tokens, List.cons_append, List.cons_append,
      Reader.run_cons (s := ⟨frames, .firstItem⟩) (by simp [Reader.step, Reader.beginValue]; omega),
      Reader.run_cons rfl]
    rfl
  | .array (v :: vs), h => by
    simp only [depth, depthItems] at h
    rw [depthItems_eq_max] at h
    rw [tokens, List.append_assoc, List.cons_append,
      Reader.run_cons (s := ⟨frames, .firstItem⟩) (by simp [Reader.step, Reader.beginValue]; omega),
      run_firstItem,
      run_tokens limit (.array [] :: frames) _ v (by simp only [List.length_cons]; omega)]
    exact run_itemTokens limit frames [v.sorted] rest vs (by omega)
  | .object [], h => by
    simp only [depth, depthMembers] at h
    rw [tokens, List.cons_append, List.cons_append,
      Reader.run_cons (s := ⟨frames, .key [] true⟩) (by simp [Reader.step, Reader.beginValue]; omega),
      Reader.run_cons rfl]
    rfl
  | .object ((key, v) :: ms), h => by
    simp only [depth, depthMembers] at h
    rw [depthMembers_eq_max] at h
    rw [tokens, List.append_assoc, List.cons_append, List.cons_append, List.cons_append,
      Reader.run_cons (s := ⟨frames, .key [] true⟩) (by simp [Reader.step, Reader.beginValue]; omega),
      Reader.run_cons rfl, Reader.run_cons rfl,
      run_tokens limit (.object [] key :: frames) _ v (by simp only [List.length_cons]; omega)]
    have hrest := run_memberTokens limit frames [(key, v.sorted)] rest ms (by omega)
    simpa [sorted, sortedMembers, Reader.deliver] using hrest

theorem Value.run_itemTokens (limit : Nat) (frames : List Frame) (items : List Value)
    (rest : List Token) : (vs : List Value) → frames.length + depthItems 0 vs < limit →
    Reader.run limit ⟨frames, .nextItem items⟩ (itemTokens vs ++ rest) =
      Reader.run limit (Reader.deliver (.array (items.reverse ++ sortedItems vs)) frames) rest
  | [], _ => by
    rw [itemTokens, List.singleton_append, Reader.run_cons rfl, sortedItems, List.append_nil]
  | v :: vs, h => by
    simp only [depthItems] at h
    rw [depthItems_eq_max] at h
    rw [itemTokens, List.append_assoc, List.cons_append, Reader.run_cons rfl,
      run_tokens limit (.array items :: frames) _ v (by simp only [List.length_cons]; omega)]
    have hrest := run_itemTokens limit frames (v.sorted :: items) rest vs (by omega)
    simpa [sortedItems, Reader.deliver] using hrest

theorem Value.run_memberTokens (limit : Nat) (frames : List Frame)
    (members : List (String × Value)) (rest : List Token) : (ms : List (String × Value)) →
    frames.length + depthMembers 0 ms < limit →
    Reader.run limit ⟨frames, .nextMember members⟩ (memberTokens ms ++ rest) =
      Reader.run limit (Reader.deliver
        (.object (sortMembers ((sortedMembers ms).reverse ++ members))) frames) rest
  | [], _ => by
    rw [memberTokens, List.singleton_append, Reader.run_cons rfl, sortedMembers, List.reverse_nil,
      List.nil_append]
  | (key, v) :: ms, h => by
    simp only [depthMembers] at h
    rw [depthMembers_eq_max] at h
    rw [memberTokens, List.append_assoc, List.cons_append, List.cons_append, List.cons_append,
      Reader.run_cons rfl, Reader.run_cons rfl, Reader.run_cons rfl,
      run_tokens limit (.object members key :: frames) _ v (by simp only [List.length_cons]; omega)]
    have hrest := run_memberTokens limit frames ((key, v.sorted) :: members) rest ms (by omega)
    simpa [sortedMembers, Reader.deliver] using hrest

end

/-- A legible value that is not nested too deep is read from its text, its members sorted. -/
theorem Value.readWithin_chars {v : Value} {limit : Nat} (hlegible : v.Legible)
    (hdepth : v.depth ≤ limit) : readWithin limit v.chars = some v.sorted := by
  have hrun := run_tokens limit [] [] v (by simpa using hdepth)
  rw [List.append_nil] at hrun
  rw [readWithin, scan_chars hlegible, Reader.start, hrun]
  rfl

end AccessPolicy.Json
