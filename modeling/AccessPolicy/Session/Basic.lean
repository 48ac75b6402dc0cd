import AccessPolicy.Evaluation.Basic
import AccessPolicy.Store

namespace AccessPolicy

/-- Names a resolver: a store, or one artifact that answers for every identifier. -/
inductive Lookup where
  | store (name : String)
  | artifact (name : String)
deriving DecidableEq

/-- Named stores and artifacts, and a log of the calls that are made. Artifacts from elsewhere are
stubs, which always give one decision. -/
structure Holdings where
  stores : List (String × PolicyStore Lookup Decision)
  artifacts : List (String × Artifact Lookup Decision)
  /-- The entries of the log, the latest first. -/
  log : List String

namespace Holdings

def empty : Holdings := ⟨[], [], []⟩

/-- A store that has not been named before is empty. -/
def store (h : Holdings) (name : String) : PolicyStore Lookup Decision :=
  (h.stores.lookup name).getD .empty

def setStore (h : Holdings) (name : String) (s : PolicyStore Lookup Decision) : Holdings :=
  { h with stores := (name, s) :: h.stores }

def artifact? (h : Holdings) (name : String) : Option (Artifact Lookup Decision) :=
  h.artifacts.lookup name

def setArtifact (h : Holdings) (name : String) (a : Artifact Lookup Decision) : Holdings :=
  { h with artifacts := (name, a) :: h.artifacts }

def note (h : Holdings) (entry : String) : Holdings :=
  { h with log := entry :: h.log }

/-- Logs an entry. -/
def say (entry : String) : EStateM ε Holdings Unit :=
  modify fun h => h.note entry

/-- What a resolver answers, by what the session holds at that moment. -/
def answer (h : Holdings) (r : Lookup) (id : String) (pattern : Option VersionPattern) :
    Except ResolutionError (Artifact Lookup Decision) :=
  match r with
  | .store name => (h.store name).resolve id pattern
  | .artifact name =>
    match h.artifact? name with
    | some a => .ok a
    | none => .error (.notFound id none)

end Holdings

/-- The resolvers and stubs of a session. Each call is logged. -/
def Session.surroundings : Surroundings Lookup Decision Holdings where
  lookUp r id pattern := do
    Holdings.say ("resolve " ++ id ++ " " ++ (pattern.map VersionPattern.source).getD "any")
    match (← get).answer r id pattern with
    | .ok a => return a
    | .error e => throw e
  decide decision document _ := do
    Holdings.say ("stub " ++ document.id)
    return decision

end AccessPolicy
