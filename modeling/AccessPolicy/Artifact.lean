import AccessPolicy.Decision
import AccessPolicy.Document.Marshal

namespace AccessPolicy

/-- What a reference asks for. -/
structure ReferenceKey where
  kind : ArtifactKind
  id : String
  version : Option String
deriving DecidableEq

def Reference.key (r : Reference) : ReferenceKey :=
  ⟨r.kind, r.target.value, r.target.version⟩

/-- Where an artifact gets what it refers to: from a resolver, which is asked once for each
reference, and afterwards from what is remembered under the number `cache`. -/
structure Source (R : Type) where
  resolver : R
  cache : Nat
deriving DecidableEq

/-- Documents that can be evaluated. `R` is the type of the names of resolvers and `X` the type of
artifacts that come from elsewhere. -/
inductive Artifact (R X : Type) where
  /-- Evaluated by walking its document. Without a source its references cannot be resolved. -/
  | standard (document : PolicyDocument) (source : Option (Source R))
  /-- Evaluated by means of its own. -/
  | external (document : PolicyDocument) (x : X)

/-- What tells artifacts on an evaluation path apart. -/
structure ArtifactKey where
  kind : ArtifactKind
  id : String
  version : String
deriving DecidableEq

namespace Artifact

variable {R X : Type}

def document : Artifact R X → PolicyDocument
  | standard d _ => d
  | external d _ => d

def kind (a : Artifact R X) : ArtifactKind :=
  a.document.kind

def id (a : Artifact R X) : String :=
  a.document.id

/-- The version text as the document states it. -/
def version (a : Artifact R X) : String :=
  a.document.version

def key (a : Artifact R X) : ArtifactKey :=
  ⟨a.kind, a.id, a.version⟩

def marshal (a : Artifact R X) : Except MarshalError (List UInt8) :=
  a.document.marshal

def marshalTo (a : Artifact R X) (sink : Sink σ) : EStateM MarshalError σ Unit :=
  a.document.marshalTo sink

end Artifact

/-- Decides what the structure of a document leaves open; `σ` is the state of the engine. -/
structure Evaluator (σ : Type) where
  /-- Whether a target applies to the request. -/
  applies : Option Target → EStateM EvaluationError σ Bool
  policy : Policy → EStateM EvaluationError σ Decision
  /-- Combines the decisions of the members of a set by the algorithm that it names. -/
  combine : String → List Decision → EStateM EvaluationError σ Decision

/-- How resolvers answer, and how artifacts from elsewhere decide. -/
structure Surroundings (R X σ : Type) where
  lookUp : R → String → Option VersionPattern → EStateM ResolutionError σ (Artifact R X)
  decide : X → PolicyDocument → Evaluator σ → EStateM EvaluationError σ Decision

end AccessPolicy
