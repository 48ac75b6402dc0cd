import AccessPolicy.Json.Number

namespace AccessPolicy.Json

/-- An object is a list of members; one that was read from a text has its members in increasing key
order and each key once. -/
inductive Value where
  | null
  | bool (b : Bool)
  | number (n : Number)
  | string (s : String)
  | array (items : List Value)
  | object (members : List (String × Value))

mutual

/-- How many arrays and objects lie one inside the other. -/
def Value.depth : Value → Nat
  | .array items => depthItems 0 items + 1
  | .object members => depthMembers 0 members + 1
  | _ => 0

/-- The depth of the deepest item, and `deepest` at least. -/
def Value.depthItems (deepest : Nat) : List Value → Nat
  | [] => deepest
  | v :: vs => depthItems (max deepest v.depth) vs

def Value.depthMembers (deepest : Nat) : List (String × Value) → Nat
  | [] => deepest
  | (_, v) :: ms => depthMembers (max deepest v.depth) ms

end

/-- Members in increasing key order. Of members with one key the first is kept. -/
def sortMembers (members : List (String × Value)) : List (String × Value) :=
  (members.mergeSort fun a b => a.1 ≤ b.1).foldr
    (fun m rest => m :: rest.dropWhile fun o => o.1 = m.1) []

def member? (key : String) (members : List (String × Value)) : Option Value :=
  members.lookup key

theorem Value.depthItems_eq_max (deepest : Nat) (vs : List Value) :
    depthItems deepest vs = max deepest (depthItems 0 vs) := by
  induction vs generalizing deepest with
  | nil => simp [depthItems]
  | cons v vs ih => simp only [depthItems]; rw [ih, ih (max 0 v.depth)]; omega

theorem Value.depthMembers_eq_max (deepest : Nat) (ms : List (String × Value)) :
    depthMembers deepest ms = max deepest (depthMembers 0 ms) := by
  induction ms generalizing deepest with
  | nil => simp [depthMembers]
  | cons m ms ih => simp only [depthMembers]; rw [ih, ih (max 0 m.2.depth)]; omega

theorem Value.depth_le_depthItems {v : Value} {vs : List Value} (h : v ∈ vs) :
    v.depth ≤ depthItems 0 vs := by
  induction vs with
  | nil => cases h
  | cons w vs ih =>
    rw [depthItems, depthItems_eq_max]
    rcases List.mem_cons.1 h with rfl | h
    · omega
    · have := ih h
      omega

theorem Value.depth_le_depthMembers {m : String × Value} {ms : List (String × Value)}
    (h : m ∈ ms) : m.2.depth ≤ depthMembers 0 ms := by
  induction ms with
  | nil => cases h
  | cons n ms ih =>
    rw [depthMembers, depthMembers_eq_max]
    rcases List.mem_cons.1 h with rfl | h
    · omega
    · have := ih h
      omega

theorem Value.depthItems_cons (v : Value) (vs : List Value) :
    depthItems 0 (v :: vs) = max v.depth (depthItems 0 vs) := by
  rw [depthItems, depthItems_eq_max, Nat.zero_max]

theorem Value.depthMembers_cons (key : String) (v : Value) (ms : List (String × Value)) :
    depthMembers 0 ((key, v) :: ms) = max v.depth (depthMembers 0 ms) := by
  rw [depthMembers, depthMembers_eq_max, Nat.zero_max]

theorem Value.depthItems_le_iff {n : Nat} {vs : List Value} :
    depthItems 0 vs ≤ n ↔ ∀ v ∈ vs, v.depth ≤ n := by
  constructor
  · intro h v hv
    exact Nat.le_trans (depth_le_depthItems hv) h
  · intro h
    induction vs with
    | nil => exact Nat.zero_le n
    | cons v vs ih =>
      have hfirst := h v List.mem_cons_self
      have hrest := ih fun w hw => h w (List.mem_cons_of_mem v hw)
      rw [depthItems_cons]
      omega

theorem Value.depthMembers_le_iff {n : Nat} {ms : List (String × Value)} :
    depthMembers 0 ms ≤ n ↔ ∀ m ∈ ms, m.2.depth ≤ n := by
  constructor
  · intro h m hm
    exact Nat.le_trans (depth_le_depthMembers hm) h
  · intro h
    induction ms with
    | nil => exact Nat.zero_le n
    | cons m ms ih =>
      have hfirst := h m List.mem_cons_self
      have hrest := ih fun o ho => h o (List.mem_cons_of_mem m ho)
      rw [depthMembers_cons]
      omega

end AccessPolicy.Json
