import AccessPolicy.Json.DecodeError
import AccessPolicy.Proofs.Json.Nesting
import Mathlib.Data.List.Sort
import Mathlib.Data.String.Basic

namespace AccessPolicy.Json

/-- Whether the keys increase, so that none comes twice. -/
def KeysIncrease (members : List (String × Value)) : Prop :=
  members.Pairwise fun m n => m.1 < n.1

theorem keysIncrease_dropRepeated {members : List (String × Value)}
    (h : members.Pairwise fun m n => m.1 ≤ n.1) : KeysIncrease (dropRepeated members) := by
  induction members with
  | nil => exact .nil
  | cons m members ih =>
    obtain ⟨hfirst, hrest⟩ := List.pairwise_cons.1 h
    have hkept := ih hrest
    have hle : ∀ n ∈ dropRepeated members, m.1 ≤ n.1 := fun n hn =>
      hfirst n ((dropRepeated_sublist members).subset hn)
    rw [dropRepeated_cons]
    refine .cons (fun n hn => ?_) (hkept.sublist (List.dropWhile_sublist _))
    -- Only the first of the others can have the key, and it is dropped if it has.
    cases hothers : dropRepeated members with
    | nil => simp [hothers] at hn
    | cons o others =>
      rw [hothers] at hkept hle hn
      obtain ⟨hlt, -⟩ := List.pairwise_cons.1 hkept
      by_cases hkey : o.1 = m.1
      · rw [List.dropWhile_cons_of_pos (by simpa using hkey)] at hn
        exact hkey ▸ hlt n ((List.dropWhile_sublist _).subset hn)
      · rw [List.dropWhile_cons_of_neg (by simpa using hkey)] at hn
        have hbelow : m.1 < o.1 := lt_of_le_of_ne (hle o List.mem_cons_self) (Ne.symm hkey)
        obtain rfl | hn := List.mem_cons.1 hn
        · exact hbelow
        · exact lt_trans hbelow (hlt n hn)

theorem keysIncrease_sortMembers (members : List (String × Value)) :
    KeysIncrease (sortMembers members) := by
  have hsorted := List.pairwise_mergeSort keyLe_trans keyLe_total members
  exact keysIncrease_dropRepeated (hsorted.imp of_decide_eq_true)

/-- A member is what is found under its key. -/
theorem member?_eq_some_iff {members : List (String × Value)} (h : KeysIncrease members)
    {key : String} {v : Value} : member? key members = some v ↔ (key, v) ∈ members := by
  refine ⟨mem_of_lookup, fun hmem => ?_⟩
  obtain ⟨before, after, rfl⟩ := List.append_of_mem hmem
  refine List.lookup_eq_some_iff.2 ⟨before, after, rfl, fun m hm => ?_⟩
  have hlt : m.1 < key := (List.pairwise_append.1 h).2.2 m hm _ List.mem_cons_self
  exact bne_iff_ne.2 (ne_of_gt hlt)

theorem mem_keys_iff {members : List (String × Value)} {key : String} :
    key ∈ members.map Prod.fst ↔ (member? key members).isSome := by
  simp [member?, List.lookup_isSome_iff]

/-- Where something is found under the same keys, the keys are the same. -/
theorem keys_eq_of_isSome {ms ns : List (String × Value)} (hms : KeysIncrease ms)
    (hns : KeysIncrease ns)
    (h : ∀ key, (member? key ms).isSome = (member? key ns).isSome) :
    ms.map Prod.fst = ns.map Prod.fst := by
  refine List.Pairwise.eq_of_mem_iff (List.pairwise_map.2 hms) (List.pairwise_map.2 hns) fun key => ?_
  rw [mem_keys_iff, mem_keys_iff, h key]

mutual

/-- Whether the members of each object in the value have increasing keys. -/
def Value.Ordered : Value → Prop
  | .array items => OrderedItems items
  | .object members => KeysIncrease members ∧ OrderedMembers members
  | _ => True

def Value.OrderedItems : List Value → Prop
  | [] => True
  | v :: vs => v.Ordered ∧ OrderedItems vs

def Value.OrderedMembers : List (String × Value) → Prop
  | [] => True
  | (_, v) :: ms => v.Ordered ∧ OrderedMembers ms

end

theorem Value.orderedItems_iff {vs : List Value} : OrderedItems vs ↔ ∀ v ∈ vs, v.Ordered := by
  induction vs with
  | nil => simp [OrderedItems]
  | cons v vs ih => simp [OrderedItems, ih]

theorem Value.orderedMembers_iff {ms : List (String × Value)} :
    OrderedMembers ms ↔ ∀ m ∈ ms, m.2.Ordered := by
  induction ms with
  | nil => simp [OrderedMembers]
  | cons m ms ih => simp [OrderedMembers, ih]

theorem Value.ordered_array {vs : List Value} :
    (Value.array vs).Ordered ↔ ∀ v ∈ vs, v.Ordered := by
  rw [Ordered, orderedItems_iff]

theorem Value.ordered_object {ms : List (String × Value)} :
    (Value.object ms).Ordered ↔ KeysIncrease ms ∧ ∀ m ∈ ms, m.2.Ordered := by
  rw [Ordered, orderedMembers_iff]

def Frame.Ordered : Frame → Prop
  | array items => ∀ v ∈ items, v.Ordered
  | object members _ => ∀ m ∈ members, m.2.Ordered

def Stage.Ordered : Stage → Prop
  | key members _ => ∀ m ∈ members, m.2.Ordered
  | colon members _ => ∀ m ∈ members, m.2.Ordered
  | nextItem items => ∀ v ∈ items, v.Ordered
  | nextMember members => ∀ m ∈ members, m.2.Ordered
  | done v => v.Ordered
  | _ => True

def Frame.shape : Frame → Shape
  | array _ => .sequence
  | object _ _ => .map

/-- The shape of the value that the stage belongs to, if it is known. -/
def Stage.shape? : Stage → Option Shape
  | value => none
  | firstItem => some .sequence
  | nextItem _ => some .sequence
  | done v => some v.shape
  | _ => some .map

namespace Reader

/-- All finished values are ordered. -/
structure Ordered (r : Reader) : Prop where
  frames : ∀ f ∈ r.frames, f.Ordered
  stage : r.stage.Ordered

/-- The shape of the outermost value, if it is known. -/
def outermost? (r : Reader) : Option Shape :=
  (r.frames.getLast?.map Frame.shape).or r.stage.shape?

theorem ordered_deliver {v : Value} {frames : List Frame} (hv : v.Ordered)
    (hframes : ∀ f ∈ frames, f.Ordered) : (deliver v frames).Ordered := by
  obtain _ | ⟨items | ⟨members, key⟩, outer⟩ := frames
  · exact ⟨hframes, hv⟩
  · obtain ⟨hitems, houter⟩ := List.forall_mem_cons.1 hframes
    exact ⟨houter, List.forall_mem_cons.2 ⟨hv, hitems⟩⟩
  · obtain ⟨hmembers, houter⟩ := List.forall_mem_cons.1 hframes
    exact ⟨houter, List.forall_mem_cons.2 ⟨hv, hmembers⟩⟩

theorem shape_getLast?_cons (f : Frame) (frames : List Frame) :
    (f :: frames).getLast?.map Frame.shape =
      (frames.getLast?.map Frame.shape).or (some f.shape) := by
  rw [List.getLast?_cons]
  cases frames.getLast? <;> rfl

theorem outermost?_deliver (v : Value) (frames : List Frame) :
    (deliver v frames).outermost? = (frames.getLast?.map Frame.shape).or (some v.shape) := by
  obtain _ | ⟨items | ⟨members, key⟩, outer⟩ := frames
  · rfl
  · rw [shape_getLast?_cons, Option.or_assoc]
    rfl
  · rw [shape_getLast?_cons, Option.or_assoc]
    rfl

/-- The first token of a value tells its shape. -/
theorem outermost?_of_beginValue {limit : Nat} {frames : List Frame} {t : Token} {s : Reader}
    (h : beginValue limit frames t = some s) :
    ∃ v, t.beginning? = some v ∧
      s.outermost? = (frames.getLast?.map Frame.shape).or (some v.shape) := by
  have hopen {v : Value} {stage : Stage} (hstage : stage.shape? = some v.shape)
      (hs : (if frames.length < limit then some (Reader.mk frames stage) else none) = some s) :
      s.outermost? = (frames.getLast?.map Frame.shape).or (some v.shape) := by
    split at hs
    · obtain rfl := Option.some.inj hs
      rw [outermost?, hstage]
    · cases hs
  cases t with
  | null => exact ⟨_, rfl, Option.some.inj h ▸ outermost?_deliver .null frames⟩
  | bool b => exact ⟨_, rfl, Option.some.inj h ▸ outermost?_deliver (.bool b) frames⟩
  | number n => exact ⟨_, rfl, Option.some.inj h ▸ outermost?_deliver (.number n) frames⟩
  | string text => exact ⟨_, rfl, Option.some.inj h ▸ outermost?_deliver (.string text) frames⟩
  | openArray => exact ⟨_, rfl, hopen rfl h⟩
  | openObject => exact ⟨_, rfl, hopen rfl h⟩
  | _ => cases h

theorem ordered_of_beginValue {limit : Nat} {frames : List Frame} {t : Token} {s : Reader}
    (hframes : ∀ f ∈ frames, f.Ordered) (h : beginValue limit frames t = some s) : s.Ordered := by
  have hopen {stage : Stage}
      (hs : (if frames.length < limit then some (Reader.mk frames stage) else none) = some s)
      (hstage : stage.Ordered) : s.Ordered := by
    split at hs
    · obtain rfl := Option.some.inj hs
      exact ⟨hframes, hstage⟩
    · cases hs
  cases t with
  | null => exact Option.some.inj h ▸ ordered_deliver trivial hframes
  | bool b => exact Option.some.inj h ▸ ordered_deliver trivial hframes
  | number n => exact Option.some.inj h ▸ ordered_deliver trivial hframes
  | string text => exact Option.some.inj h ▸ ordered_deliver trivial hframes
  | openArray => exact hopen h trivial
  | openObject => exact hopen h (List.forall_mem_nil _)
  | _ => cases h

theorem ordered_object_sortMembers {members : List (String × Value)}
    (h : ∀ m ∈ members, m.2.Ordered) : (Value.object (sortMembers members)).Ordered :=
  Value.ordered_object.2
    ⟨keysIncrease_sortMembers members, fun m hm => h m (mem_of_mem_sortMembers hm)⟩

theorem ordered_array_reverse {items : List Value} (h : ∀ v ∈ items, v.Ordered) :
    (Value.array items.reverse).Ordered :=
  Value.ordered_array.2 fun v hv => h v (List.mem_reverse.1 hv)

/-- What a step keeps: that what is read is ordered, and the shape of the outermost value. -/
structure Keeps (r s : Reader) : Prop where
  ordered : r.Ordered → s.Ordered
  outermost : ∀ {shape}, r.outermost? = some shape → s.outermost? = some shape

theorem keeps_of_beginValue {limit : Nat} {frames : List Frame} {t : Token} {r s : Reader}
    (hframes : r.Ordered → ∀ f ∈ frames, f.Ordered)
    (hshape : r.outermost? = frames.getLast?.map Frame.shape)
    (h : beginValue limit frames t = some s) : Keeps r s := by
  obtain ⟨v, -, hs⟩ := outermost?_of_beginValue h
  refine ⟨fun hr => ordered_of_beginValue (hframes hr) h, fun hknown => ?_⟩
  rw [hs, ← hshape, hknown]
  rfl

/-- What a bracket closes is handed on with the shape that it has had all along. -/
theorem keeps_of_close {r : Reader} {v : Value} (hv : r.Ordered → v.Ordered)
    (hstage : r.stage.shape? = some v.shape) : Keeps r (deliver v r.frames) := by
  refine ⟨fun hr => ordered_deliver (hv hr) hr.frames, fun hknown => ?_⟩
  rw [outermost?_deliver, ← hstage]
  exact hknown

theorem keeps_of_step {limit : Nat} {r s : Reader} {t : Token} (h : step limit r t = some s) :
    Keeps r s := by
  obtain ⟨frames, stage⟩ := r
  cases stage with
  | value => exact keeps_of_beginValue (fun hr => hr.frames) (Option.or_none) h
  | firstItem =>
    by_cases ht : t = .closeArray
    · subst ht
      obtain rfl := Option.some.inj h
      exact keeps_of_close (fun _ => trivial) rfl
    · rw [step_firstItem ht] at h
      refine keeps_of_beginValue (fun hr => ?_) ?_ h
      · exact List.forall_mem_cons.2 ⟨List.forall_mem_nil _, hr.frames⟩
      · rw [shape_getLast?_cons]
        rfl
  | key members closable =>
    cases t with
    | string key =>
      obtain rfl := Option.some.inj h
      exact ⟨fun hr => ⟨hr.frames, hr.stage⟩, id⟩
    | closeObject =>
      cases closable with
      | false => cases h
      | true =>
        obtain rfl := Option.some.inj h
        exact keeps_of_close (fun hr => ordered_object_sortMembers hr.stage) rfl
    | _ => cases closable <;> cases h
  | colon members key =>
    cases t with
    | colon =>
      obtain rfl := Option.some.inj h
      refine ⟨fun hr => ⟨List.forall_mem_cons.2 ⟨hr.stage, hr.frames⟩, trivial⟩, fun hknown => ?_⟩
      rw [outermost?, shape_getLast?_cons]
      exact Option.or_none.trans hknown
    | _ => cases h
  | nextItem items =>
    cases t with
    | comma =>
      obtain rfl := Option.some.inj h
      refine ⟨fun hr => ⟨List.forall_mem_cons.2 ⟨hr.stage, hr.frames⟩, trivial⟩, fun hknown => ?_⟩
      rw [outermost?, shape_getLast?_cons]
      exact Option.or_none.trans hknown
    | closeArray =>
      obtain rfl := Option.some.inj h
      exact keeps_of_close (fun hr => ordered_array_reverse hr.stage) rfl
    | _ => cases h
  | nextMember members =>
    cases t with
    | comma =>
      obtain rfl := Option.some.inj h
      exact ⟨fun hr => ⟨hr.frames, hr.stage⟩, id⟩
    | closeObject =>
      obtain rfl := Option.some.inj h
      exact keeps_of_close (fun hr => ordered_object_sortMembers hr.stage) rfl
    | _ => cases h
  | done v => cases h

theorem keeps_of_run {limit : Nat} {r s : Reader} {tokens : List Token}
    (h : run limit r tokens = some s) : Keeps r s := by
  induction tokens generalizing r with
  | nil =>
    obtain rfl : r = s := Option.some.inj h
    exact ⟨id, id⟩
  | cons t ts ih =>
    obtain ⟨q, hstep, hrest⟩ := Option.bind_eq_some_iff.1 h
    have hfirst := keeps_of_step hstep
    have hlater := ih hrest
    exact ⟨fun hr => hlater.ordered (hfirst.ordered hr),
      fun hknown => hlater.outermost (hfirst.outermost hknown)⟩

/-- A value that is read is ordered, and has the shape that its first token tells. -/
theorem ordered_of_run {limit : Nat} {tokens : List Token} {v : Value}
    (h : (run limit start tokens).bind value? = some v) :
    v.Ordered ∧ ∃ w, tokens.head?.bind Token.beginning? = some w ∧ w.shape = v.shape := by
  obtain ⟨s, hrun, hvalue⟩ := Option.bind_eq_some_iff.1 h
  obtain rfl := eq_done_of_value? hvalue
  refine ⟨((keeps_of_run hrun).ordered ⟨List.forall_mem_nil _, trivial⟩).stage, ?_⟩
  cases tokens with
  | nil => cases hrun
  | cons t ts =>
    obtain ⟨q, hstep, hrest⟩ := Option.bind_eq_some_iff.1 hrun
    obtain ⟨w, hw, hknown⟩ := outermost?_of_beginValue hstep
    have hlast := (keeps_of_run hrest).outermost hknown
    exact ⟨w, hw, (Option.some.inj hlast).symm⟩

end Reader

end AccessPolicy.Json
