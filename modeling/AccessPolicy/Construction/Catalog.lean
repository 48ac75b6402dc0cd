import AccessPolicy.Construction.Standard

namespace AccessPolicy

/-- Constructors, each under its own name, and no name twice. -/
structure Catalog (R X σ : Type) where
  /-- The constructors under the names they are found by, in the order of registration. -/
  entries : List (String × Constructor R X σ)

namespace Catalog

variable {R X σ : Type}

def empty : Catalog R X σ := ⟨[]⟩

def withStandard [DecidableEq R] (sur : Surroundings R X σ) (c : StandardConstructor) :
    Catalog R X σ :=
  ⟨[(standardName, c.toConstructor sur)]⟩

def names (c : Catalog R X σ) : List String :=
  c.entries.map Prod.fst

def contains (c : Catalog R X σ) (name : String) : Bool :=
  c.names.contains name

def get (c : Catalog R X σ) (name : String) : Except LoadError (Constructor R X σ) :=
  match c.entries.lookup name with
  | some k => .ok k
  | none => .error ⟨name⟩

/-- Puts a constructor under its own name, after those that are there. -/
def add (c : Catalog R X σ) (k : Constructor R X σ) : Catalog R X σ :=
  ⟨c.entries ++ [(k.name, k)]⟩

/-- Adds a constructor unless its name is taken or a capability is missing. -/
def register (k : Constructor R X σ) : EStateM ConfigurationError (Catalog R X σ) Unit := fun c =>
  if c.contains k.name then .error (.alreadyRegistered k.name) c
  else
    match k.validate with
    | .error e => .error e c
    | .ok () => .ok () (c.add k)

theorem contains_iff {c : Catalog R X σ} {name : String} : c.contains name ↔ name ∈ c.names := by
  simp [contains]

def size (c : Catalog R X σ) : Nat :=
  c.entries.length

def isEmpty (c : Catalog R X σ) : Bool :=
  c.entries.isEmpty

end Catalog

end AccessPolicy
