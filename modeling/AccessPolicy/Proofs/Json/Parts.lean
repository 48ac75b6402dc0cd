import AccessPolicy.Proofs.Json.Fields

namespace AccessPolicy.Json

/-- A value is the other one itself or stands somewhere inside it. -/
inductive Value.PartOf : Value → Value → Prop
  | itself {v : Value} : PartOf v v
  | item {v w : Value} {items : List Value} (hitem : w ∈ items) (h : PartOf v w) :
    PartOf v (.array items)
  | field {v : Value} {m : String × Value} {members : List (String × Value)} (hfield : m ∈ members)
    (h : PartOf v m.2) : PartOf v (.object members)

mutual

/-- The keys of all objects in a value, however deep they stand. -/
def Value.keys : Value → List String
  | .array items => itemKeys items
  | .object members => memberKeys members
  | _ => []

def Value.itemKeys : List Value → List String
  | [] => []
  | v :: vs => v.keys ++ itemKeys vs

def Value.memberKeys : List (String × Value) → List String
  | [] => []
  | (key, v) :: ms => key :: v.keys ++ memberKeys ms

end

namespace Value.PartOf

theorem trans {u v w : Value} (huv : u.PartOf v) (hvw : v.PartOf w) : u.PartOf w := by
  induction hvw with
  | itself => exact huv
  | item hitem _ ih => exact .item hitem ih
  | field hfield _ ih => exact .field hfield ih

/-- What stands in a field of an object. -/
theorem of_mem (key : String) {v : Value} {members : List (String × Value)}
    (h : (key, v) ∈ members) : v.PartOf (.object members) :=
  .field h .itself

/-- What stands in a list that a field of an object holds. -/
theorem of_mem_list (key : String) {v w : Value} {items : List Value}
    {members : List (String × Value)} (hlist : (key, .array items) ∈ members) (hitem : w ∈ items)
    (h : v.PartOf w) : v.PartOf (.object members) :=
  .field hlist (.item hitem h)

end Value.PartOf

theorem Value.partOf_variant (tag : String) (payload : Value) :
    payload.PartOf (variant tag payload) :=
  .of_mem tag (List.mem_singleton_self (tag, payload))

theorem mem_textField? {key text : String} {optional : Option String} (h : optional = some text) :
    (key, .string text) ∈ textField? key optional := by
  subst h
  exact List.mem_singleton_self _

theorem mem_childField? {key : String} {encode : α → Value} {child : Option α} {a : α}
    (h : child = some a) : (key, encode a) ∈ childField? key encode child := by
  subst h
  exact List.mem_singleton_self _

theorem mem_listField {key : String} {v : Value} {items : List Value} (h : v ∈ items) :
    (key, .array items) ∈ listField key items := by
  cases items with
  | nil => cases h
  | cons w items => exact List.mem_singleton_self _

/-- No object in the value has the key, however deep it stands. -/
def Value.Avoids (key : String) (v : Value) : Prop :=
  key ∉ v.keys

variable {key : String}

@[simp] theorem Value.avoids_string (text : String) : (Value.string text).Avoids key := by
  simp [Avoids, keys]

@[simp] theorem Value.avoids_bool (b : Bool) : (Value.bool b).Avoids key := by
  simp [Avoids, keys]

@[simp] theorem Value.avoids_array {vs : List Value} :
    (Value.array vs).Avoids key ↔ ∀ v ∈ vs, v.Avoids key := by
  unfold Avoids
  rw [keys]
  induction vs with
  | nil => simp [itemKeys]
  | cons v vs ih => simp [itemKeys, ih]

@[simp] theorem Value.avoids_object {ms : List (String × Value)} :
    (Value.object ms).Avoids key ↔ EachField (fun k v => key ≠ k ∧ v.Avoids key) ms := by
  unfold Avoids
  rw [keys]
  induction ms with
  | nil => simp [memberKeys]
  | cons m ms ih =>
    obtain ⟨other, v⟩ := m
    simp [memberKeys, ih, and_assoc]

@[simp] theorem Value.avoids_variant {tag : String} {payload : Value} :
    (variant tag payload).Avoids key ↔ key ≠ tag ∧ payload.Avoids key := by
  simp [variant]

end AccessPolicy.Json
