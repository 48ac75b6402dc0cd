import AccessPolicy.Json.Decode

namespace AccessPolicy

/-- What a constructor can do. -/
inductive Capability where
  | fromStream
  | withResolver
  | inferred
deriving DecidableEq

namespace Capability

/-- All capabilities in contract order. -/
def all : List Capability := [fromStream, withResolver, inferred]

def name : Capability → String
  | fromStream => "ConstructFromStream"
  | withResolver => "ConstructWithResolver"
  | inferred => "ConstructInferred"

def table : List (String × Capability) :=
  all.map fun c => (c.name, c)

/-- The operation as it is shown in messages. -/
def display : Capability → String
  | fromStream => "build-from(stream, kind)"
  | withResolver => "build-from(stream, kind, resolver)"
  | inferred => "build-from(stream, resolver)"

def encode (c : Capability) : Json.Value :=
  .string c.name

def decode : Json.Decoder Capability :=
  Json.named table

end Capability

/-- A set of capabilities, by its characteristic function. -/
structure CapabilitySet where
  fromStream : Bool
  withResolver : Bool
  inferred : Bool
deriving DecidableEq

namespace CapabilitySet

def empty : CapabilitySet := ⟨false, false, false⟩

/-- The contract: every capability. -/
def full : CapabilitySet := ⟨true, true, true⟩

def has (s : CapabilitySet) : Capability → Bool
  | .fromStream => s.fromStream
  | .withResolver => s.withResolver
  | .inferred => s.inferred

def insert (s : CapabilitySet) : Capability → CapabilitySet
  | .fromStream => { s with fromStream := true }
  | .withResolver => { s with withResolver := true }
  | .inferred => { s with inferred := true }

def ofList (cs : List Capability) : CapabilitySet :=
  cs.foldl insert empty

/-- The members in contract order. -/
def toList (s : CapabilitySet) : List Capability :=
  Capability.all.filter s.has

/-- The capabilities of `required` that `s` lacks, in contract order. -/
def missing (s required : CapabilitySet) : List Capability :=
  required.toList.filter fun c => !s.has c

def satisfiesContract (s : CapabilitySet) : Bool :=
  (s.missing full).isEmpty

def size (s : CapabilitySet) : Nat :=
  s.toList.length

def isEmpty (s : CapabilitySet) : Bool :=
  s.toList.isEmpty

def layout : Json.Layout := ⟨"CapabilitySet", ["capabilities"]⟩

def encode (s : CapabilitySet) : Json.Value :=
  .object [("capabilities", .array (s.toList.map Capability.encode))]

def decode (v : Json.Value) : Except Json.DecodeError CapabilitySet :=
  layout.finish .standing v
    (ofList <$> layout.required v "capabilities" (Json.list Capability.decode))

theorem has_insert (s : CapabilitySet) (c d : Capability) :
    (s.insert c).has d = (decide (c = d) || s.has d) := by
  cases c <;> cases d <;> simp [insert, has]

theorem mem_toList {s : CapabilitySet} {c : Capability} : c ∈ s.toList ↔ s.has c := by
  cases c <;> simp [toList, Capability.all]

end CapabilitySet

end AccessPolicy
