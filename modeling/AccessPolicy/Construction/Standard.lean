import AccessPolicy.Config.Basic
import AccessPolicy.Construction.Constructor
import AccessPolicy.Document.Reading

namespace AccessPolicy

/-- Reads JSON policy documents of a bounded size. -/
structure StandardConstructor where
  resolution : ResolutionMode
  maxDocumentBytes : UInt64
deriving DecidableEq

namespace StandardConstructor

def ofConfig (c : FactoryConfig) : StandardConstructor :=
  ⟨c.resolution, c.maxDocumentBytes⟩

def default : StandardConstructor := ofConfig .default

/-- Reads a document, of the expected kind if there is one. -/
def readDocument (c : StandardConstructor) (expected : Option ArtifactKind) :
    Reading ConstructionError PolicyDocument := do
  let bytes ← readBytes c.maxDocumentBytes
  ofExcept (PolicyDocument.read expected bytes)

variable {R X σ : Type} [DecidableEq R]

/-- The artifact for a document. Eager resolution asks for each of its references in order. -/
def build (c : StandardConstructor) (sur : Surroundings R X σ) (document : PolicyDocument)
    (source : Option (Source R)) : Constructing R X σ (Artifact R X) :=
  match c.resolution with
  | .lazy => return .standard document source
  | .eager => do
    (resolveAll sur source document.references).adaptExcept .resolution
    return .standard document source

/-- Opens a source for the resolver. -/
def openSource (resolver : R) : EStateM ε (World R X σ) (Source R) := fun w =>
  .ok (w.openSource resolver).1 (w.openSource resolver).2

def construct (c : StandardConstructor) (sur : Surroundings R X σ) (kind : ArtifactKind) :
    Consuming R X σ (Artifact R X) := do
  let document ← Consuming.reading (c.readDocument (some kind))
  Consuming.constructing (c.build sur document none)

/-- Builds an artifact, of the expected kind if there is one, whose references are resolved by
`resolver`. -/
def constructResolving (c : StandardConstructor) (sur : Surroundings R X σ)
    (expected : Option ArtifactKind) (resolver : R) : Consuming R X σ (Artifact R X) := do
  let document ← Consuming.reading (c.readDocument expected)
  Consuming.constructing do
    let source ← openSource resolver
    c.build sur document (some source)

def toConstructor (c : StandardConstructor) (sur : Surroundings R X σ) : Constructor R X σ where
  name := standardName
  capabilities := .full
  construct := c.construct sur
  constructWithResolver kind := c.constructResolving sur (some kind)
  constructInferred := c.constructResolving sur none

end StandardConstructor

end AccessPolicy
