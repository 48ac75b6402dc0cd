import AccessPolicy.Construction.Catalog
import AccessPolicy.Document.Marshal

namespace AccessPolicy

/-- All construction goes through the active constructor, which can be exchanged for another that
keeps the contract. -/
structure Factory (R X σ : Type) where
  catalog : Catalog R X σ
  active : Constructor R X σ

/-- What to construct an artifact from, and by which operation of a factory. -/
inductive Order where
  | policy (input : ByteStream)
  | policySet (input : ByteStream)
  | policySetWithResolver (input : ByteStream)
  | inferred (input : ByteStream)
  | fromPolicy (p : Policy)
  | fromPolicySet (s : PolicySet)

namespace Factory

variable {R X σ : Type}

def withCatalog (catalog : Catalog R X σ) (active : String) : Except LoadError (Factory R X σ) :=
  (catalog.get active).map fun k => ⟨catalog, k⟩

/-- The standard constructor of the catalog follows the configuration. -/
def ofConfig [DecidableEq R] (sur : Surroundings R X σ) (config : FactoryConfig) :
    Except FactoryError (Factory R X σ) := do
  config.validate.mapError .configuration
  (withCatalog (.withStandard sur (.ofConfig config)) config.constructor).mapError .load

/-- The factory with the default configuration. -/
def new [DecidableEq R] (sur : Surroundings R X σ) : Factory R X σ :=
  ⟨.withStandard sur .default, StandardConstructor.default.toConstructor sur⟩

/-- Adds a constructor to the catalog; the active one stays. -/
def register (k : Constructor R X σ) : EStateM ConfigurationError (Factory R X σ) Unit := fun f =>
  match Catalog.register k f.catalog with
  | .ok () catalog => .ok () { f with catalog }
  | .error e catalog => .error e { f with catalog }

/-- A constructor that lacks a capability is refused, and the factory stays as it was. -/
def setConstructor (k : Constructor R X σ) :
    EStateM ConfigurationError (Factory R X σ) Unit := fun f =>
  match k.validate with
  | .error e => .error e f
  | .ok () => .ok () { f with active := k }

/-- Activates a constructor of the catalog. -/
def setByName (name : String) : EStateM FactoryError (Factory R X σ) Unit := fun f =>
  match f.catalog.get name with
  | .error e => .error (.load e) f
  | .ok k => (setConstructor k).adaptExcept .configuration f

def createPolicy (f : Factory R X σ) (input : ByteStream) :
    Constructing R X σ (Artifact R X) :=
  (f.active.construct .policy).on input

def createPolicySet (f : Factory R X σ) (input : ByteStream) :
    Constructing R X σ (Artifact R X) :=
  (f.active.construct .policySet).on input

def createPolicySetWithResolver (f : Factory R X σ) (input : ByteStream) (resolver : R) :
    Constructing R X σ (Artifact R X) :=
  (f.active.constructWithResolver .policySet resolver).on input

def create (f : Factory R X σ) (input : ByteStream) (resolver : R) :
    Constructing R X σ (Artifact R X) :=
  (f.active.constructInferred resolver).on input

/-- Marshals a policy and constructs it again from the bytes. -/
def createPolicyFrom (f : Factory R X σ) (p : Policy) : Constructing R X σ (Artifact R X) :=
  match (PolicyDocument.policy p).marshal with
  | .error e => throw (.marshal e)
  | .ok bytes => f.createPolicy (.ofBytes bytes)

def createPolicySetFrom (f : Factory R X σ) (s : PolicySet) : Constructing R X σ (Artifact R X) :=
  match (PolicyDocument.policySet s).marshal with
  | .error e => throw (.marshal e)
  | .ok bytes => f.createPolicySet (.ofBytes bytes)

/-- Constructs an artifact as ordered; the operations that take no resolver leave it out. -/
def fill (f : Factory R X σ) (order : Order) (resolver : R) : Constructing R X σ (Artifact R X) :=
  match order with
  | .policy input => f.createPolicy input
  | .policySet input => f.createPolicySet input
  | .policySetWithResolver input => f.createPolicySetWithResolver input resolver
  | .inferred input => f.create input resolver
  | .fromPolicy p => f.createPolicyFrom p
  | .fromPolicySet s => f.createPolicySetFrom s

end Factory

end AccessPolicy
