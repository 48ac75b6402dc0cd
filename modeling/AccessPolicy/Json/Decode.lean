import AccessPolicy.Json.DecodeError

namespace AccessPolicy.Json

abbrev Decoder (α : Type) := Value → Except DecodeError α

def string : Decoder String
  | .string s => .ok s
  | v => .error (.invalidType v.shape "a string")

def bool : Decoder Bool
  | .bool b => .ok b
  | v => .error (.invalidType v.shape "a boolean")

def word : Decoder UInt64
  | .number (.natural n) => .ok n
  | .number (.negative n) => .error (.invalidValue (.number (.negative n)) "u64")
  | v => .error (.invalidType v.shape "u64")

/-- Decodes an array; an item may be decoded by what is only known to work below `v`. -/
def listBelow (v : Value) (item : (i : Value) → i.depth < v.depth → Except DecodeError α) :
    Except DecodeError (List α) :=
  match v with
  | .array items => items.attach.mapM fun i =>
    item i.1 (Nat.lt_succ_of_le (Value.depth_le_depthItems i.2))
  | v => .error (.invalidType v.shape "a sequence")

def list (item : Decoder α) : Decoder (List α) := fun v =>
  listBelow v fun i _ => item i

/-- Null stands for no value. -/
def optional (some? : Decoder α) : Decoder (Option α)
  | .null => .ok none
  | v => (some? v).map some

def singleKey : DecodeError :=
  .invalidValue .map "map with a single key"

/-- Picks the alternative that a name stands for. -/
def pick (table : List (String × α)) (name : String) : Except DecodeError α :=
  match table.lookup name with
  | some a => .ok a
  | none => .error (.unknownVariant name (table.map Prod.fst))

/-- An alternative with a payload, written as an object with one member. -/
def tagged (table : List (String × α)) (v : Value) :
    Except DecodeError { m : α × Value // m.2.depth < v.depth } :=
  match v with
  | .object [(name, payload)] =>
    (pick table name).map fun a =>
      ⟨(a, payload), Nat.lt_succ_of_le
        (Value.depth_le_depthMembers (List.mem_singleton_self (name, payload)))⟩
  | .object _ => .error singleKey
  | .string name =>
    (pick table name).bind fun _ => .error (.invalidType .unitVariant "newtype variant")
  | v => .error (.invalidType v.shape "string or map")

/-- An alternative without a payload: its name, or an object whose one member holds null. -/
def named (table : List (String × α)) : Decoder α
  | .string name => pick table name
  | .object [(name, payload)] =>
    (pick table name).bind fun a =>
      match payload with
      | .null => .ok a
      | v => .error (.invalidType v.shape "unit")
  | .object _ => .error singleKey
  | v => .error (.invalidType v.shape "string or map")

structure Layout where
  name : String
  fields : List String

/-- Whether a record stands by itself or in a member that was merged into the record around it. -/
inductive Place where
  | standing
  | merged

/-- What some fields of a record amount to: the fields that do not decode, and the value that they
give together. -/
structure Partial (α : Type) where
  faults : List (String × DecodeError)
  result : Except DecodeError α

instance : Functor Partial where
  map f p := ⟨p.faults, p.result.map f⟩

instance : Applicative Partial where
  pure a := ⟨[], .ok a⟩
  seq f x := ⟨f.faults ++ (x ()).faults, f.result.bind fun g => (x ()).result.map g⟩

def elements (n : Nat) : String :=
  toString n ++ (if n = 1 then " element" else " elements")

namespace Layout

def field? (l : Layout) (key : String) : Value → Option Value
  | .object members => member? key members
  | .array items => items[l.fields.idxOf key]?
  | _ => none

def expectation (l : Layout) : String :=
  "struct " ++ l.name

def missing (l : Layout) (key : String) : Value → DecodeError
  | .array _ =>
    .invalidLength (l.fields.idxOf key) (l.expectation ++ " with " ++ elements l.fields.length)
  | _ => .missingField key

def surplus (l : Layout) (length : Nat) : Place → DecodeError
  | .standing => .invalidLength length "fewer elements in array"
  | .merged => .invalidLength length (elements l.fields.length ++ " in sequence")

/-- The field as it was decoded, or `absent` if it was not written. -/
def field (l : Layout) (key : String) (absent : Except DecodeError α) (v : Value)
    (decode : (c : Value) → l.field? key v = some c → Except DecodeError α) : Partial α :=
  match h : l.field? key v with
  | none => ⟨[], absent⟩
  | some c =>
    match decode c h with
    | .ok a => ⟨[], .ok a⟩
    | .error e => ⟨[(key, e)], .error e⟩

def required (l : Layout) (v : Value) (key : String) (decode : Decoder α) : Partial α :=
  l.field key (.error (l.missing key v)) v fun c _ => decode c

def defaulted (l : Layout) (v : Value) (key : String) (default : α) (decode : Decoder α) :
    Partial α :=
  l.field key (.ok default) v fun c _ => decode c

def optional (l : Layout) (v : Value) (key : String) (decode : Decoder α) : Partial (Option α) :=
  l.defaulted v key none (Json.optional decode)

theorem depth_lt_of_field? {l : Layout} {key : String} {v c : Value}
    (h : l.field? key v = some c) : c.depth < v.depth := by
  unfold field? at h
  split at h
  · next members =>
    have hmem : ∃ k, (k, c) ∈ members := by
      simp only [member?, List.lookup_eq_some_iff] at h
      obtain ⟨before, after, rfl, _⟩ := h
      exact ⟨key, by simp⟩
    obtain ⟨k, hmem⟩ := hmem
    exact Nat.lt_succ_of_le (Value.depth_le_depthMembers hmem)
  · exact Nat.lt_succ_of_le (Value.depth_le_depthItems (List.mem_of_getElem? h))
  · cases h

/-- A list that may be left out. Its items may be decoded by what is only known to work below
`v`. -/
def listBelow (l : Layout) (v : Value) (key : String)
    (item : (i : Value) → i.depth < v.depth → Except DecodeError α) : Partial (List α) :=
  l.field key (.ok []) v fun c hc =>
    Json.listBelow c fun i hi => item i (Nat.lt_trans hi (depth_lt_of_field? hc))

/-- The fault with the least key. -/
def leastFault : List (String × DecodeError) → Option (String × DecodeError)
  | [] => none
  | f :: rest =>
    match leastFault rest with
    | none => some f
    | some g => if g.1 < f.1 then some g else some f

/-- The record that its fields give. It is written as an object or as the array of its fields in
declared order. Of the fields of an object that do not decode, the one with the least key is
reported; after that, and in an array at once, fields are taken in declared order. -/
def finish (l : Layout) (place : Place) (v : Value) (p : Partial α) : Except DecodeError α :=
  match v with
  | .object _ =>
    match leastFault p.faults with
    | some (_, e) => .error e
    | none => p.result
  | .array items =>
    p.result.bind fun a =>
      if l.fields.length < items.length then .error (l.surplus items.length place) else .ok a
  | v => .error (.invalidType v.shape l.expectation)

/-- Like `finish`, for a record that only objects stand for. -/
def finishObject (l : Layout) (v : Value) (p : Partial α) : Except DecodeError α :=
  match v with
  | .object _ => l.finish .standing v p
  | v => .error (.invalidType v.shape l.expectation)

end Layout

/-- An alternative whose member stands among the fields of the record around it: the first member
that names one counts. -/
def merged (choice : String) (table : List (String × α)) (v : Value)
    (decode : α → Decoder β) : Partial β :=
  match v with
  | .object members =>
    match members.findSome? fun m => (table.lookup m.1).map fun a => (a, m.2) with
    | some (a, payload) => ⟨[], decode a payload⟩
    | none => ⟨[], .error (.noVariant choice)⟩
  | _ => ⟨[], .error (.noVariant choice)⟩

end AccessPolicy.Json
