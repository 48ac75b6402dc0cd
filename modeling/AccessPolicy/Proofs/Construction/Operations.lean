import AccessPolicy.Construction.Standard
import AccessPolicy.Proofs.Construction.Stream

namespace AccessPolicy

namespace Consuming

variable {R X σ : Type} (x : Reading ConstructionError α) (f : α → Constructing R X σ β)

/-- What is constructed from what was read does not depend on the rest of the stream. -/
theorem on_reading_bind (input : ByteStream) :
    on (reading x >>= fun a => constructing (f a)) input = match x.on input with
      | .error e => throw e
      | .ok a => f a := by
  funext w
  simp only [on, reading, constructing, Reading.on, EStateM.run, Bind.bind, EStateM.bind]
  cases x input with
  | error e rest => rfl
  | ok a rest =>
    simp only [mapEnd, answerOf]
    cases f a w <;> rfl

/-- What is constructed from what was read takes nothing more of the stream. -/
theorem endState_reading_bind (s : World R X σ × ByteStream) :
    (endState ((reading x >>= fun a => constructing (f a) : Consuming R X σ β) s)).2 =
      endState (x.run s.2) := by
  simp only [reading, constructing, EStateM.run, Bind.bind, EStateM.bind]
  cases x s.2 with
  | error e rest => rfl
  | ok a rest => exact congrArg Prod.snd (endState_mapEnd _ _)

end Consuming

namespace StandardConstructor

theorem on_readDocument (c : StandardConstructor) (expected : Option ArtifactKind)
    (input : ByteStream) :
    (c.readDocument expected).on input =
      ((readBytes c.maxDocumentBytes).on input).bind (PolicyDocument.read expected) := by
  simp only [readDocument, Reading.on_bind, Reading.on_ofExcept]

/-- Decoding takes nothing more of the stream. -/
theorem endState_readDocument (c : StandardConstructor) (expected : Option ArtifactKind)
    (input : ByteStream) :
    endState ((c.readDocument expected).run input) =
      endState ((readBytes c.maxDocumentBytes).run input) := by
  simp only [readDocument, EStateM.run, Bind.bind, EStateM.bind]
  cases readBytes c.maxDocumentBytes input with
  | error e rest => rfl
  | ok bytes rest =>
    dsimp only
    cases PolicyDocument.read expected bytes <;> rfl

variable {R X σ : Type} [DecidableEq R]

theorem on_construct (c : StandardConstructor) (sur : Surroundings R X σ) (kind : ArtifactKind)
    (input : ByteStream) :
    (c.construct sur kind).on input = match (c.readDocument (some kind)).on input with
      | .error e => throw e
      | .ok d => c.build sur d none := by
  rw [construct, Consuming.on_reading_bind]
  cases (c.readDocument (some kind)).on input <;> rfl

theorem on_constructResolving (c : StandardConstructor) (sur : Surroundings R X σ)
    (expected : Option ArtifactKind) (resolver : R) (input : ByteStream) :
    (c.constructResolving sur expected resolver).on input =
      match (c.readDocument expected).on input with
      | .error e => throw e
      | .ok d => openSource resolver >>= fun source => c.build sur d (some source) := by
  rw [constructResolving, Consuming.on_reading_bind]
  cases (c.readDocument expected).on input <;> rfl

end StandardConstructor

end AccessPolicy
