import AccessPolicy.Capability
import AccessPolicy.Construction.Stream
import AccessPolicy.Resolution

namespace AccessPolicy

/-- Construction, which may ask resolvers. -/
abbrev Constructing (R X σ : Type) :=
  EStateM ConstructionError (World R X σ)

/-- Construction from a stream, the rest of which it leaves. -/
abbrev Consuming (R X σ : Type) :=
  EStateM ConstructionError (World R X σ × ByteStream)

namespace Consuming

/-- Reads from the stream. -/
def reading (x : Reading ConstructionError α) : Consuming R X σ α := fun s =>
  mapEnd (Prod.mk s.1) (x s.2)

/-- Constructs without the stream. -/
def constructing (x : Constructing R X σ α) : Consuming R X σ α := fun s =>
  mapEnd (·, s.2) (x s.1)

/-- What comes of a stream whose rest is dropped. -/
def on (x : Consuming R X σ α) (input : ByteStream) : Constructing R X σ α := fun w =>
  mapEnd Prod.fst (x (w, input))

end Consuming

/-- Turns streams into artifacts. A constructor says which of the three operations it can do; the
contract asks for all of them. -/
structure Constructor (R X σ : Type) where
  name : String
  capabilities : CapabilitySet
  /-- Builds an artifact of the kind whose references have no resolver. -/
  construct : ArtifactKind → Consuming R X σ (Artifact R X)
  /-- Builds an artifact of the kind whose references are resolved by the given resolver. -/
  constructWithResolver : ArtifactKind → R → Consuming R X σ (Artifact R X) :=
    fun _ _ => throw (.unsupported name .withResolver)
  /-- Builds an artifact of whichever kind the document is of. -/
  constructInferred : R → Consuming R X σ (Artifact R X) :=
    fun _ => throw (.unsupported name .inferred)

/-- A constructor must declare every capability. -/
def Constructor.validate (c : Constructor R X σ) : Except ConfigurationError Unit :=
  match c.capabilities.missing .full with
  | [] => .ok ()
  | missing => .error (.missingCapabilities c.name missing)

end AccessPolicy
