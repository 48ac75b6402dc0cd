import AccessPolicy.Construction.Factory
import AccessPolicy.Session.Script

namespace AccessPolicy

/-- A factory, what is held under names, and an evaluation chain. -/
structure Session where
  factory : Factory Lookup Decision Holdings
  world : World Lookup Decision Holdings
  chain : EvaluationChain

namespace Session

def new : Session := ⟨.new surroundings, .new .empty, .empty⟩

def holdings (s : Session) : Holdings := s.world.outside

def updateHoldings (s : Session) (f : Holdings → Holdings) : Session :=
  { s with world := { s.world with outside := f s.holdings } }

def artifact? (s : Session) (name : String) : Option (Artifact Lookup Decision) :=
  s.holdings.artifact? name

/-- The entries logged so far, the oldest first, and the session with an empty log. -/
def takeLog (s : Session) : List String × Session :=
  (s.holdings.log.reverse, s.updateHoldings fun h => { h with log := [] })

/-- Replaces the factory by one with the given configuration. -/
def configure (s : Session) (config : FactoryConfig) : Except FactoryError Session :=
  (Factory.ofConfig surroundings config).map fun factory => { s with factory }

/-- Registers constructors in order and tells what came of each. -/
def registerEach (catalog : Catalog Lookup Decision Holdings) :
    List ConstructorScript →
      List (Except ConfigurationError Unit) × Catalog Lookup Decision Holdings
  | [] => ([], catalog)
  | script :: rest =>
    match Catalog.register script.toConstructor catalog with
    | .ok () catalog => ((registerEach catalog rest).map (.ok () :: ·) id)
    | .error e catalog => ((registerEach catalog rest).map (.error e :: ·) id)

/-- Replaces the factory by one over the catalog. -/
def useCatalog (s : Session) (catalog : Catalog Lookup Decision Holdings) (active : String) :
    Except LoadError Session :=
  (Factory.withCatalog catalog active).map fun factory => { s with factory }

/-- Runs an operation of the factory. One that is refused leaves the session as it is. -/
def onFactory (s : Session) (operation : EStateM ε (Factory Lookup Decision Holdings) Unit)
    (f : ε → FactoryError) : Except FactoryError Session :=
  match operation s.factory with
  | .ok () factory => .ok { s with factory }
  | .error e _ => .error (f e)

def register (s : Session) (script : ConstructorScript) : Except FactoryError Session :=
  s.onFactory (Factory.register script.toConstructor) .configuration

def setConstructor (s : Session) (script : ConstructorScript) : Except FactoryError Session :=
  s.onFactory (Factory.setConstructor script.toConstructor) .configuration

def setByName (s : Session) (name : String) : Except FactoryError Session :=
  s.onFactory (Factory.setByName name) id

/-- Keeps an artifact under a name. -/
def save (s : Session) (name : String) (a : Artifact Lookup Decision) : Session :=
  s.updateHoldings fun h => h.setArtifact name a

/-- Constructs an artifact and keeps it under a name, if one is given. -/
def create (s : Session) (order : Order) (resolver : Lookup) (name : Option String) :
    Except ConstructionError (Artifact Lookup Decision) × Session :=
  match s.factory.fill order resolver s.world with
  | .error e world => (.error e, { s with world })
  | .ok a world =>
    let s := { s with world }
    (.ok a, (name.map fun name => s.save name a).getD s)

/-- Puts an artifact into a store. -/
def insert (s : Session) (store : String) (a : Artifact Lookup Decision) :
    Except ResolutionError Unit × Session :=
  match PolicyStore.insert a (s.holdings.store store) with
  | .ok () new => (.ok (), s.updateHoldings fun h => h.setStore store new)
  | .error e new => (.error e, s.updateHoldings fun h => h.setStore store new)

/-- Looks an identifier up in a store. -/
def resolve (s : Session) (store id : String) (pattern : Option VersionPattern) :
    Except ResolutionError (Artifact Lookup Decision) :=
  (s.holdings.store store).resolve id pattern

/-- Evaluates an artifact by itself. -/
def evaluate (s : Session) (script : EngineScript) (a : Artifact Lookup Decision) :
    Except EvaluationError Decision × Session :=
  match AccessPolicy.evaluate surroundings script.toEvaluator a s.world with
  | .ok d world => (.ok d, { s with world })
  | .error e world => (.error e, { s with world })

/-- Evaluates an artifact on the chain of the session. -/
def evaluateInChain (s : Session) (script : EngineScript) (a : Artifact Lookup Decision) :
    Except EvaluationError Decision × Session :=
  match evaluateIn surroundings script.toEvaluator a ⟨s.chain, s.world⟩ with
  | .ok d e => (.ok d, { s with world := e.world, chain := e.chain })
  | .error err e => (.error err, { s with world := e.world, chain := e.chain })

def enter (s : Session) (a : Artifact Lookup Decision) : Except ResolutionError Session :=
  (s.chain.enter a.key).map fun chain => { s with chain }

def leave (s : Session) : Session :=
  { s with chain := s.chain.leave }

end Session

end AccessPolicy
