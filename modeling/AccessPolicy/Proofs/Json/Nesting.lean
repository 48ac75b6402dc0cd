import AccessPolicy.Proofs.Json.Reading
import AccessPolicy.Proofs.Text.Utf8

namespace AccessPolicy.Json

/-- How many arrays and objects are open after the token if `opened` are open before it. -/
def Token.openAfter (opened : Nat) : Token → Nat
  | openArray => opened + 1
  | openObject => opened + 1
  | closeArray => opened - 1
  | closeObject => opened - 1
  | _ => opened

/-- The most arrays and objects that are open at a time, `opened` of them from the beginning. -/
def deepest (opened : Nat) : List Token → Nat
  | [] => opened
  | t :: ts => max opened (deepest (t.openAfter opened) ts)

/-- How many arrays and objects lie one inside the other in a text. -/
def nesting (bytes : List UInt8) : Nat :=
  deepest 0 (scan (Text.Utf8.decode bytes).1)

theorem le_deepest (opened : Nat) (tokens : List Token) : opened ≤ deepest opened tokens := by
  cases tokens with
  | nil => exact Nat.le_refl opened
  | cons t ts => exact Nat.le_max_left opened _

mutual

theorem Value.deepest_tokens (opened : Nat) (rest : List Token) : (v : Value) →
    deepest opened (v.tokens ++ rest) = max (opened + v.depth) (deepest opened rest)
  | .null => rfl
  | .bool _ => rfl
  | .number _ => rfl
  | .string _ => rfl
  | .array [] => by
    have hle := le_deepest opened rest
    simp only [tokens, depth, depthItems, List.cons_append, List.nil_append, deepest,
      Token.openAfter, Nat.add_sub_cancel]
    omega
  | .array (v :: vs) => by
    have hle := le_deepest opened rest
    have hitems := deepest_itemTokens opened rest vs
    simp only [tokens, depth, depthItems_cons, List.cons_append, List.append_assoc, deepest,
      Token.openAfter, deepest_tokens (opened + 1) _ v, hitems]
    omega
  | .object [] => by
    have hle := le_deepest opened rest
    simp only [tokens, depth, depthMembers, List.cons_append, List.nil_append, deepest,
      Token.openAfter, Nat.add_sub_cancel]
    omega
  | .object ((key, v) :: ms) => by
    have hle := le_deepest opened rest
    have hmembers := deepest_memberTokens opened rest ms
    simp only [tokens, depth, depthMembers_cons, List.cons_append, List.append_assoc, deepest,
      Token.openAfter, deepest_tokens (opened + 1) _ v, hmembers]
    omega

theorem Value.deepest_itemTokens (opened : Nat) (rest : List Token) : (vs : List Value) →
    deepest (opened + 1) (itemTokens vs ++ rest) =
      max (opened + 1 + depthItems 0 vs) (deepest opened rest)
  | [] => by
    simp only [itemTokens, depthItems, List.cons_append, List.nil_append, deepest, Token.openAfter,
      Nat.add_sub_cancel, Nat.add_zero]
  | v :: vs => by
    have hitems := deepest_itemTokens opened rest vs
    simp only [itemTokens, depthItems_cons, List.cons_append, List.append_assoc, deepest,
      Token.openAfter, deepest_tokens (opened + 1) _ v, hitems]
    omega

theorem Value.deepest_memberTokens (opened : Nat) (rest : List Token) :
    (ms : List (String × Value)) →
    deepest (opened + 1) (memberTokens ms ++ rest) =
      max (opened + 1 + depthMembers 0 ms) (deepest opened rest)
  | [] => by
    simp only [memberTokens, depthMembers, List.cons_append, List.nil_append, deepest,
      Token.openAfter, Nat.add_sub_cancel, Nat.add_zero]
  | (key, v) :: ms => by
    have hmembers := deepest_memberTokens opened rest ms
    simp only [memberTokens, depthMembers_cons, List.cons_append, List.append_assoc, deepest,
      Token.openAfter, deepest_tokens (opened + 1) _ v, hmembers]
    omega

end

theorem nesting_text {v : Value} (h : v.Legible) :
    nesting (Text.Utf8.encode v.text.toList) = v.depth := by
  have htokens := Value.deepest_tokens 0 [] v
  rw [List.append_nil] at htokens
  rw [nesting, Text.Utf8.decode_encode, Value.toList_text, Value.scan_chars h, htokens]
  simp [deepest]

def Frame.depth : Frame → Nat
  | array items => Value.depthItems 0 items
  | object members _ => Value.depthMembers 0 members

/-- How deep what the frames hold lies, counted from the outermost. -/
def reachOf : List Frame → Nat
  | [] => 0
  | f :: outer => max (outer.length + 1 + f.depth) (reachOf outer)

namespace Reader

/-- How many arrays and objects are open. -/
def opened (r : Reader) : Nat :=
  match r.stage with
  | .value => r.frames.length
  | .done _ => r.frames.length
  | _ => r.frames.length + 1

/-- How deep what has been read lies, counted from the outermost array or object. -/
def reach (r : Reader) : Nat :=
  max (reachOf r.frames) <|
    match r.stage with
    | .value => 0
    | .firstItem => r.frames.length + 1
    | .key members _ => r.frames.length + 1 + Value.depthMembers 0 members
    | .colon members _ => r.frames.length + 1 + Value.depthMembers 0 members
    | .nextItem items => r.frames.length + 1 + Value.depthItems 0 items
    | .nextMember members => r.frames.length + 1 + Value.depthMembers 0 members
    | .done v => r.frames.length + v.depth

theorem opened_deliver (v : Value) (frames : List Frame) :
    (deliver v frames).opened = frames.length := by
  obtain _ | ⟨_ | _, outer⟩ := frames <;> rfl

theorem reach_deliver (v : Value) (frames : List Frame) :
    (deliver v frames).reach = max (reachOf frames) (frames.length + v.depth) := by
  obtain _ | ⟨items | ⟨members, key⟩, outer⟩ := frames
  · rfl
  · simp only [deliver, reach, reachOf, Frame.depth, Value.depthItems_cons, List.length_cons]
    omega
  · simp only [deliver, reach, reachOf, Frame.depth, Value.depthMembers_cons, List.length_cons]
    omega

/-- What one token changes: how much is open, how deep what was read lies, and the limit that what
is open keeps to. -/
structure Advances (limit : Nat) (r : Reader) (t : Token) (s : Reader) : Prop where
  opened : s.opened = t.openAfter r.opened
  reach : s.reach ≤ max r.reach s.opened
  within : s.opened ≤ max r.opened limit

theorem advances_of_beginValue {limit : Nat} {frames : List Frame} {t : Token} {r s : Reader}
    (hopened : r.opened = frames.length) (hreach : reachOf frames ≤ r.reach)
    (h : beginValue limit frames t = some s) : Advances limit r t s := by
  have hscalar {v : Value} (hv : v.depth = 0) (ht : t.openAfter r.opened = r.opened)
      (hs : some (deliver v frames) = some s) : Advances limit r t s := by
    obtain rfl := Option.some.inj hs
    refine ⟨?_, ?_, ?_⟩
    · rw [opened_deliver, ht, hopened]
    · rw [reach_deliver, opened_deliver, hv]
      omega
    · rw [opened_deliver]
      omega
  have hopen {stage : Stage} (hstage : (Reader.mk frames stage).opened = frames.length + 1)
      (hdepth : (Reader.mk frames stage).reach = max (reachOf frames) (frames.length + 1))
      (ht : t.openAfter r.opened = r.opened + 1)
      (hs : (if frames.length < limit then some (Reader.mk frames stage) else none) = some s) :
      Advances limit r t s := by
    split at hs
    · obtain rfl := Option.some.inj hs
      exact ⟨by omega, by omega, by omega⟩
    · cases hs
  cases t with
  | null => exact hscalar rfl rfl h
  | bool b => exact hscalar rfl rfl h
  | number n => exact hscalar rfl rfl h
  | string text => exact hscalar rfl rfl h
  | openArray => exact hopen rfl rfl rfl h
  | openObject => exact hopen rfl rfl rfl h
  | _ => cases h

/-- What a bracket closes is handed on as a value that reaches as deep as its items did. -/
theorem advances_of_close {limit : Nat} {r : Reader} {t : Token} {v : Value}
    (hopened : r.opened = r.frames.length + 1) (ht : t.openAfter r.opened = r.opened - 1)
    (hreach : reachOf r.frames ≤ r.reach) (hdepth : r.frames.length + v.depth ≤ r.reach) :
    Advances limit r t (deliver v r.frames) := by
  refine ⟨?_, ?_, ?_⟩
  · rw [opened_deliver, ht, hopened, Nat.add_sub_cancel]
  · rw [reach_deliver]
    omega
  · rw [opened_deliver]
    omega

theorem depth_array_reverse_le (items : List Value) :
    (Value.array items.reverse).depth ≤ 1 + Value.depthItems 0 items := by
  have hitems : Value.depthItems 0 items.reverse ≤ Value.depthItems 0 items := by
    rw [Value.depthItems_le_iff]
    intro v hv
    exact Value.depth_le_depthItems (List.mem_reverse.1 hv)
  simp only [Value.depth]
  omega

theorem depth_object_sortMembers_le (members : List (String × Value)) :
    (Value.object (sortMembers members)).depth ≤ 1 + Value.depthMembers 0 members := by
  have hmembers : Value.depthMembers 0 (sortMembers members) ≤ Value.depthMembers 0 members := by
    rw [Value.depthMembers_le_iff]
    intro m hm
    exact Value.depth_le_depthMembers (mem_of_mem_sortMembers hm)
  simp only [Value.depth]
  omega

theorem step_firstItem {limit : Nat} {frames : List Frame} {t : Token} (h : t ≠ .closeArray) :
    step limit ⟨frames, .firstItem⟩ t = beginValue limit (.array [] :: frames) t := by
  cases t with
  | closeArray => exact absurd rfl h
  | _ => rfl

/-- A token between values opens and closes nothing. -/
theorem advances_of_mark {limit : Nat} {r s : Reader} {t : Token}
    (ht : t.openAfter r.opened = r.opened) (hopened : s.opened = r.opened)
    (hreach : s.reach ≤ r.reach) : Advances limit r t s :=
  ⟨by rw [hopened, ht], by omega, by omega⟩

theorem advances_of_step {limit : Nat} {r s : Reader} {t : Token} (h : step limit r t = some s) :
    Advances limit r t s := by
  obtain ⟨frames, stage⟩ := r
  -- A step leaves the outer frames alone, so what lies in them is still there.
  have hframes : reachOf frames ≤ (Reader.mk frames stage).reach := Nat.le_max_left _ _
  cases stage with
  | value => exact advances_of_beginValue rfl hframes h
  | firstItem =>
    by_cases ht : t = .closeArray
    · subst ht
      obtain rfl := Option.some.inj h
      exact advances_of_close rfl rfl hframes (Nat.le_max_right _ _)
    · rw [step_firstItem ht] at h
      refine advances_of_beginValue rfl ?_ h
      simp only [reachOf, reach, Frame.depth, Value.depthItems]
      omega
  | key members closable =>
    cases t with
    | string key =>
      obtain rfl := Option.some.inj h
      exact advances_of_mark rfl rfl (Nat.le_refl _)
    | closeObject =>
      cases closable with
      | false => cases h
      | true =>
        obtain rfl := Option.some.inj h
        have hdepth := depth_object_sortMembers_le members
        refine advances_of_close rfl rfl hframes ?_
        simp only [reach]
        omega
    | _ => cases closable <;> cases h
  | colon members key =>
    cases t with
    | colon =>
      obtain rfl := Option.some.inj h
      refine advances_of_mark rfl rfl ?_
      simp only [reachOf, reach, Frame.depth]
      omega
    | _ => cases h
  | nextItem items =>
    cases t with
    | comma =>
      obtain rfl := Option.some.inj h
      refine advances_of_mark rfl rfl ?_
      simp only [reachOf, reach, Frame.depth]
      omega
    | closeArray =>
      obtain rfl := Option.some.inj h
      have hdepth := depth_array_reverse_le items
      refine advances_of_close rfl rfl hframes ?_
      simp only [reach]
      omega
    | _ => cases h
  | nextMember members =>
    cases t with
    | comma =>
      obtain rfl := Option.some.inj h
      exact advances_of_mark rfl rfl (Nat.le_refl _)
    | closeObject =>
      obtain rfl := Option.some.inj h
      have hdepth := depth_object_sortMembers_le members
      refine advances_of_close rfl rfl hframes ?_
      simp only [reach]
      omega
    | _ => cases h
  | done v => cases h

/-- What a run reads lies no deeper than what lay there before or than its tokens open. -/
theorem reach_le_of_run {limit : Nat} {r s : Reader} {tokens : List Token}
    (h : run limit r tokens = some s) :
    s.reach ≤ max r.reach (deepest r.opened tokens) := by
  induction tokens generalizing r with
  | nil =>
    obtain rfl : r = s := Option.some.inj h
    exact Nat.le_max_left _ _
  | cons t ts ih =>
    obtain ⟨q, hstep, hrest⟩ := Option.bind_eq_some_iff.1 h
    have hadvances := advances_of_step hstep
    have hreach := hadvances.reach
    have hle := le_deepest q.opened ts
    have hih := ih hrest
    rw [deepest, ← hadvances.opened]
    omega

theorem deepest_le_of_run {limit : Nat} {r s : Reader} {tokens : List Token}
    (h : run limit r tokens = some s) : deepest r.opened tokens ≤ max r.opened limit := by
  induction tokens generalizing r with
  | nil => exact Nat.le_max_left _ _
  | cons t ts ih =>
    obtain ⟨q, hstep, hrest⟩ := Option.bind_eq_some_iff.1 h
    have hadvances := advances_of_step hstep
    have hwithin := hadvances.within
    have hih := ih hrest
    rw [deepest, ← hadvances.opened]
    omega

theorem eq_done_of_value? {r : Reader} {v : Value} (h : r.value? = some v) : r = ⟨[], .done v⟩ := by
  obtain ⟨_ | ⟨f, outer⟩, stage⟩ := r
  · cases stage with
    | done w =>
      obtain rfl : w = v := Option.some.inj h
      rfl
    | _ => cases h
  · cases h

theorem depth_le_reach {r : Reader} {v : Value} (h : r.value? = some v) : v.depth ≤ r.reach := by
  obtain rfl := eq_done_of_value? h
  simp only [reach, List.length_nil]
  omega

/-- A value that is read is nested no deeper than its text, and that no deeper than the limit. -/
theorem depth_le_of_run {limit : Nat} {tokens : List Token} {v : Value}
    (h : (run limit start tokens).bind value? = some v) :
    v.depth ≤ deepest 0 tokens ∧ deepest 0 tokens ≤ limit := by
  obtain ⟨r, hrun, hvalue⟩ := Option.bind_eq_some_iff.1 h
  have hdepth := depth_le_reach hvalue
  have hreach := reach_le_of_run hrun
  have hlimit := deepest_le_of_run hrun
  have hopened : start.opened = 0 := rfl
  have hstart : start.reach = 0 := rfl
  rw [hopened] at hreach hlimit
  omega

end Reader

end AccessPolicy.Json
