import AccessPolicy.Proofs.Json.Nesting

namespace AccessPolicy.Json

/-- Whether the tokens of the text are those of the value. -/
def Value.SpelledBy (v : Value) (cs : List Char) : Prop :=
  scan cs = v.tokens

theorem Value.tokens_ne_closeArray (v : Value) (rest after : List Token) :
    v.tokens ++ rest ≠ .closeArray :: after := by
  rcases v with _ | _ | _ | _ | (_ | ⟨v, vs⟩) | (_ | ⟨⟨key, v⟩, ms⟩) <;> simp [tokens]

mutual

theorem Value.eq_of_tokens {rest after : List Token} : (v w : Value) →
    v.tokens ++ rest = w.tokens ++ after → v = w ∧ rest = after
  | .null, w, h | .bool _, w, h | .number _, w, h | .string _, w, h | .object [], w, h => by
    rcases w with _ | _ | _ | _ | (_ | ⟨w, ws⟩) | (_ | ⟨⟨key, w⟩, ns⟩) <;> simp_all [tokens]
  | .array [], w, h => by
    rcases w with _ | _ | _ | _ | (_ | ⟨w, ws⟩) | (_ | ⟨⟨key, w⟩, ns⟩)
    case array.cons => simp [tokens, (tokens_ne_closeArray w _ _).symm] at h
    all_goals simp_all [tokens]
  | .array (v :: vs), w, h => by
    rcases w with _ | _ | _ | _ | (_ | ⟨w, ws⟩) | (_ | ⟨⟨key, w⟩, ns⟩)
    case array.nil => simp [tokens, tokens_ne_closeArray v] at h
    case array.cons =>
      simp only [tokens, List.cons_append, List.append_assoc, List.cons.injEq, true_and] at h
      obtain ⟨rfl, hrest⟩ := eq_of_tokens v w h
      obtain ⟨rfl, rfl⟩ := eq_of_itemTokens vs ws hrest
      exact ⟨rfl, rfl⟩
    all_goals simp [tokens] at h
  | .object ((key, v) :: ms), w, h => by
    rcases w with _ | _ | _ | _ | (_ | ⟨w, ws⟩) | (_ | ⟨⟨other, w⟩, ns⟩)
    case object.cons =>
      simp only [tokens, List.cons_append, List.append_assoc, List.cons.injEq, true_and,
        Token.string.injEq] at h
      obtain ⟨rfl, h⟩ := h
      obtain ⟨rfl, hrest⟩ := eq_of_tokens v w h
      obtain ⟨rfl, rfl⟩ := eq_of_memberTokens ms ns hrest
      exact ⟨rfl, rfl⟩
    all_goals simp [tokens] at h

theorem Value.eq_of_itemTokens {rest after : List Token} : (vs ws : List Value) →
    itemTokens vs ++ rest = itemTokens ws ++ after → vs = ws ∧ rest = after
  | [], ws, h => by cases ws <;> simp_all [itemTokens]
  | v :: vs, ws, h => by
    cases ws with
    | nil => simp [itemTokens] at h
    | cons w ws =>
      simp only [itemTokens, List.cons_append, List.append_assoc, List.cons.injEq, true_and] at h
      obtain ⟨rfl, hrest⟩ := eq_of_tokens v w h
      obtain ⟨rfl, rfl⟩ := eq_of_itemTokens vs ws hrest
      exact ⟨rfl, rfl⟩

theorem Value.eq_of_memberTokens {rest after : List Token} : (ms ns : List (String × Value)) →
    memberTokens ms ++ rest = memberTokens ns ++ after → ms = ns ∧ rest = after
  | [], ns, h => by cases ns <;> simp_all [memberTokens]
  | (key, v) :: ms, ns, h => by
    cases ns with
    | nil => simp [memberTokens] at h
    | cons n ns =>
      obtain ⟨other, w⟩ := n
      simp only [memberTokens, List.cons_append, List.append_assoc, List.cons.injEq, true_and,
        Token.string.injEq] at h
      obtain ⟨rfl, h⟩ := h
      obtain ⟨rfl, hrest⟩ := eq_of_tokens v w h
      obtain ⟨rfl, rfl⟩ := eq_of_memberTokens ms ns hrest
      exact ⟨rfl, rfl⟩

end

theorem Value.SpelledBy.eq {cs : List Char} {v w : Value} (hv : v.SpelledBy cs)
    (hw : w.SpelledBy cs) : v = w := by
  have htokens : v.tokens ++ [] = w.tokens ++ [] := by rw [← hv, ← hw]
  exact (Value.eq_of_tokens v w htokens).1

/-- A legible value is spelled by what is written for it. -/
theorem Value.spelledBy_text {v : Value} (h : v.Legible) : v.SpelledBy v.text.toList := by
  rw [SpelledBy, toList_text]
  exact scan_chars h

/-- The tokens of an array up to the comma behind `vs`, the items so far, latest first. -/
def Value.openItems : List Value → List Token
  | [] => [.openArray]
  | v :: vs => openItems vs ++ (v.tokens ++ [.comma])

/-- The tokens of an object up to the comma behind `ms`, the members so far, latest first. -/
def Value.openMembers : List (String × Value) → List Token
  | [] => [.openObject]
  | (key, v) :: ms => openMembers ms ++ (.string key :: .colon :: v.tokens ++ [.comma])

theorem Value.tokens_array_append (vs ws : List Value) (v : Value) :
    (Value.array (vs.reverse ++ v :: ws)).tokens = openItems vs ++ (v.tokens ++ itemTokens ws) := by
  induction vs generalizing v ws with
  | nil => simp [tokens, openItems]
  | cons u vs ih =>
    rw [List.reverse_cons, List.append_assoc, List.singleton_append, ih, openItems, itemTokens]
    simp

theorem Value.tokens_object_append (ms ns : List (String × Value)) (key : String) (v : Value) :
    (Value.object (ms.reverse ++ (key, v) :: ns)).tokens =
      openMembers ms ++ (.string key :: .colon :: v.tokens ++ memberTokens ns) := by
  induction ms generalizing key v ns with
  | nil => simp [tokens, openMembers]
  | cons m ms ih =>
    obtain ⟨first, u⟩ := m
    rw [List.reverse_cons, List.append_assoc, List.singleton_append, ih, openMembers, memberTokens]
    simp

/-- The frame is that of an array or object of which the tokens have been read. -/
inductive Frame.Read : Frame → List Token → Prop
  | array (vs : List Value) : Read (.array (Value.sortedItems vs)) (Value.openItems vs)
  | object (ms : List (String × Value)) (key : String) :
    Read (.object (Value.sortedMembers ms) key) (Value.openMembers ms ++ [.string key, .colon])

/-- The frames have been opened by the tokens, the outermost by the first of them. -/
inductive FramesRead : List Frame → List Token → Prop
  | nil : FramesRead [] []
  | cons {f : Frame} {outer : List Frame} {before tokens : List Token} :
    FramesRead outer before → f.Read tokens → FramesRead (f :: outer) (before ++ tokens)

/-- The stage is reached by the tokens that have been read behind those of the frames. -/
inductive Stage.Read : Stage → List Token → Prop
  | value : Read .value []
  | firstItem : Read .firstItem [.openArray]
  | firstKey : Read (.key [] true) [.openObject]
  | key (ms : List (String × Value)) :
    Read (.key (Value.sortedMembers ms) false) (Value.openMembers ms)
  | colon (ms : List (String × Value)) (key : String) :
    Read (.colon (Value.sortedMembers ms) key) (Value.openMembers ms ++ [.string key])
  | nextItem (vs : List Value) (v : Value) :
    Read (.nextItem (v.sorted :: Value.sortedItems vs)) (Value.openItems vs ++ v.tokens)
  | nextMember (ms : List (String × Value)) (key : String) (v : Value) :
    Read (.nextMember ((key, v.sorted) :: Value.sortedMembers ms))
      (Value.openMembers ms ++ .string key :: .colon :: v.tokens)
  | done (v : Value) : Read (.done v.sorted) v.tokens

namespace Reader

/-- The tokens are those that have brought a reader to where it is. -/
inductive Read : Reader → List Token → Prop
  | intro {frames : List Frame} {stage : Stage} {before tokens : List Token} :
    FramesRead frames before → stage.Read tokens → Read ⟨frames, stage⟩ (before ++ tokens)

theorem read_deliver {frames : List Frame} {before : List Token} (h : FramesRead frames before)
    (v : Value) : (deliver v.sorted frames).Read (before ++ v.tokens) := by
  cases h with
  | nil => exact .intro .nil (.done v)
  | cons houter hframe =>
    rw [List.append_assoc]
    cases hframe with
    | array vs => exact .intro houter (.nextItem vs v)
    | object ms key =>
      rw [List.append_assoc]
      exact .intro houter (.nextMember ms key v)

theorem read_of_beginValue {limit : Nat} {frames : List Frame} {before : List Token} {t : Token}
    {s : Reader} (hframes : FramesRead frames before) (h : beginValue limit frames t = some s) :
    s.Read (before ++ [t]) := by
  have hopen {stage : Stage} (hstage : stage.Read [t])
      (hs : (if frames.length < limit then some (Reader.mk frames stage) else none) = some s) :
      s.Read (before ++ [t]) := by
    split at hs
    · exact Option.some.inj hs ▸ .intro hframes hstage
    · cases hs
  cases t with
  | null => exact Option.some.inj h ▸ read_deliver hframes .null
  | bool b => exact Option.some.inj h ▸ read_deliver hframes (.bool b)
  | number n => exact Option.some.inj h ▸ read_deliver hframes (.number n)
  | string text => exact Option.some.inj h ▸ read_deliver hframes (.string text)
  | openArray => exact hopen .firstItem h
  | openObject => exact hopen .firstKey h
  | _ => cases h

/-- What a bracket closes is handed on as the value whose tokens it ends. -/
theorem read_of_close {frames : List Frame} {before tokens : List Token} {t : Token} {v w : Value}
    (hframes : FramesRead frames before) (htokens : tokens ++ [t] = v.tokens) (hw : w = v.sorted) :
    (deliver w frames).Read (before ++ tokens ++ [t]) := by
  rw [List.append_assoc, htokens, hw]
  exact read_deliver hframes v

/-- A step reads its token. -/
theorem read_of_step {limit : Nat} {r s : Reader} {tokens : List Token} {t : Token}
    (hr : r.Read tokens) (h : step limit r t = some s) : s.Read (tokens ++ [t]) := by
  obtain ⟨hframes, hstage⟩ := hr
  cases hstage with
  | value =>
    rw [List.append_nil]
    exact read_of_beginValue hframes h
  | firstItem =>
    by_cases ht : t = .closeArray
    · subst ht
      obtain rfl := Option.some.inj h
      exact read_of_close hframes (v := .array []) rfl rfl
    · rw [step_firstItem ht] at h
      exact read_of_beginValue (.cons hframes (.array [])) h
  | firstKey =>
    cases t with
    | string key =>
      obtain rfl := Option.some.inj h
      rw [List.append_assoc]
      exact .intro hframes (.colon [] key)
    | closeObject =>
      obtain rfl := Option.some.inj h
      exact read_of_close hframes (v := .object []) rfl rfl
    | _ => cases h
  | key ms =>
    cases t with
    | string key =>
      obtain rfl := Option.some.inj h
      rw [List.append_assoc]
      exact .intro hframes (.colon ms key)
    | _ => cases h
  | colon ms key =>
    cases t with
    | colon =>
      obtain rfl := Option.some.inj h
      have hread := Read.intro (.cons hframes (.object ms key)) .value
      simpa using hread
    | _ => cases h
  | nextItem vs v =>
    cases t with
    | comma =>
      obtain rfl := Option.some.inj h
      have hread := Read.intro (.cons hframes (.array (v :: vs))) .value
      simpa [Value.openItems, Value.sortedItems] using hread
    | closeArray =>
      obtain rfl := Option.some.inj h
      refine read_of_close hframes (v := .array (vs.reverse ++ [v])) ?_ ?_
      · rw [Value.tokens_array_append, Value.itemTokens, List.append_assoc]
      · simp [Value.sorted, Value.sortedItems_eq_map]
    | _ => cases h
  | nextMember ms key v =>
    cases t with
    | comma =>
      obtain rfl := Option.some.inj h
      have hread := Read.intro hframes (.key ((key, v) :: ms))
      simpa [Value.openMembers, Value.sortedMembers] using hread
    | closeObject =>
      obtain rfl := Option.some.inj h
      refine read_of_close hframes (v := .object (ms.reverse ++ [(key, v)])) ?_ ?_
      · rw [Value.tokens_object_append, Value.memberTokens, List.append_assoc]
      · simp [Value.sorted, Value.sortedMembers_eq_map]
    | _ => cases h
  | done v => cases h

theorem read_of_run {limit : Nat} {r s : Reader} {before tokens : List Token}
    (hr : r.Read before) (h : run limit r tokens = some s) : s.Read (before ++ tokens) := by
  induction tokens generalizing r before with
  | nil =>
    obtain rfl : r = s := Option.some.inj h
    rwa [List.append_nil]
  | cons t ts ih =>
    obtain ⟨q, hstep, hrest⟩ := Option.bind_eq_some_iff.1 h
    have hread := ih (read_of_step hr hstep) hrest
    rwa [List.append_assoc] at hread

end Reader

/-- A text is read exactly if it spells a value that is not nested too deep. -/
theorem readWithin_eq_some_iff {limit : Nat} {cs : List Char} {w : Value} :
    readWithin limit cs = some w ↔
      ∃ v : Value, v.SpelledBy cs ∧ v.depth ≤ limit ∧ v.sorted = w := by
  constructor
  · intro h
    obtain ⟨s, hrun, hvalue⟩ := Option.bind_eq_some_iff.1 h
    obtain rfl := Reader.eq_done_of_value? hvalue
    have hread := Reader.read_of_run (.intro .nil .value) hrun
    generalize htokens : [] ++ [] ++ scan cs = tokens at hread
    cases hread with
    | intro hframes hstage =>
      cases hframes
      cases hstage with
      | done v =>
        have hspells : scan cs = v.tokens := htokens
        have hdeepest := Value.deepest_tokens 0 [] v
        have hlimit := (Reader.depth_le_of_run h).2
        rw [List.append_nil] at hdeepest
        rw [hspells, hdeepest] at hlimit
        exact ⟨v, hspells, by omega, rfl⟩
  · rintro ⟨v, hspells, hdepth, rfl⟩
    have hrun := Value.run_tokens limit [] [] v (by simpa using hdepth)
    rw [List.append_nil] at hrun
    rw [readWithin, hspells, Reader.start, hrun]
    rfl

mutual

/-- Whether no object in the value has a key twice. -/
def Value.Distinct : Value → Prop
  | .array items => DistinctItems items
  | .object members => (members.map Prod.fst).Nodup ∧ DistinctMembers members
  | _ => True

def Value.DistinctItems : List Value → Prop
  | [] => True
  | v :: vs => v.Distinct ∧ DistinctItems vs

def Value.DistinctMembers : List (String × Value) → Prop
  | [] => True
  | (_, v) :: ms => v.Distinct ∧ DistinctMembers ms

end

theorem Value.distinctItems_iff {vs : List Value} : DistinctItems vs ↔ ∀ v ∈ vs, v.Distinct := by
  induction vs with
  | nil => simp [DistinctItems]
  | cons v vs ih => simp [DistinctItems, ih]

theorem Value.distinctMembers_iff {ms : List (String × Value)} :
    DistinctMembers ms ↔ ∀ m ∈ ms, m.2.Distinct := by
  induction ms with
  | nil => simp [DistinctMembers]
  | cons m ms ih => simp [DistinctMembers, ih]

theorem Value.distinct_array {vs : List Value} :
    (Value.array vs).Distinct ↔ ∀ v ∈ vs, v.Distinct := by
  rw [Distinct, distinctItems_iff]

theorem Value.distinct_object {ms : List (String × Value)} :
    (Value.object ms).Distinct ↔ (ms.map Prod.fst).Nodup ∧ ∀ m ∈ ms, m.2.Distinct := by
  rw [Distinct, distinctMembers_iff]

end AccessPolicy.Json
