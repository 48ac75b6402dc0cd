import AccessPolicy.Document.Reading
import AccessPolicy.Proofs.Json.Depth

namespace AccessPolicy

open Json

/-- The document is of another kind than the one expected. -/
def ConstructionError.OfKind (e : ConstructionError) : Prop :=
  ∃ expected actual, e = .kindMismatch expected actual

/-- The error is about what the bytes of a document say. -/
def ConstructionError.OfContent : ConstructionError → Prop
  | .malformed _ => True
  | .schema _ => True
  | _ => False

theorem ConstructionError.OfContent.not_ofKind {e : ConstructionError} (h : e.OfContent) :
    ¬ e.OfKind := by
  rintro ⟨expected, actual, rfl⟩
  exact h

/-- How a reader treats the kind that is expected. Either it fails without it, and then alike
whatever is expected, or it finds the kind of the document and refuses the other kind. -/
inductive ChecksKind (read : Option ArtifactKind → Except ConstructionError PolicyDocument) : Prop
  | unread {e : ConstructionError} (herror : ¬ e.OfKind) (h : ∀ expected, read expected = .error e)
  | found (kind : ArtifactKind) (hsame : read (some kind) = read none)
      (hother : ∀ other, other ≠ kind → read (some other) = .error (.kindMismatch other kind))
      (hkind : ∀ d, read none = .ok d → d.kind = kind)
      (herror : ∀ e, read none = .error e → ¬ e.OfKind)

namespace PolicyDocument

/-- The kind of the root of a document and what stands under its name. -/
def readRoot (bytes : List UInt8) : Except ConstructionError (ArtifactKind × Value) := do
  let members ← (readMembers bytes).mapError .malformed
  let others ← (checkNamespace members).mapError .schema
  (findRoot others).mapError .schema

/-- The document that stands under a root of the kind. -/
def readUnder (kind : ArtifactKind) (body : Value) : Except ConstructionError PolicyDocument := do
  let document ← (decodeRoot kind body).mapError fun e => .malformed (.undecodable e)
  document.validate.mapError .schema
  return document

/-- The expected kind is looked at between the two stages of reading. -/
theorem read_eq (expected : Option ArtifactKind) (bytes : List UInt8) :
    read expected bytes = (do
      let (kind, body) ← readRoot bytes
      if let some e := expected then
        if e ≠ kind then throw (.kindMismatch e kind)
      readUnder kind body) := by
  simp only [read, readRoot, bind_assoc]
  rfl

theorem ofContent_of_readRoot {bytes : List UInt8} {e : ConstructionError}
    (h : readRoot bytes = .error e) : e.OfContent := by
  obtain h | ⟨members, -, h⟩ := bind_eq_error_iff.1 h
  · obtain ⟨_, -, rfl⟩ := mapError_eq_error_iff.1 h
    trivial
  · obtain h | ⟨others, -, h⟩ := bind_eq_error_iff.1 h <;>
      obtain ⟨_, -, rfl⟩ := mapError_eq_error_iff.1 h <;> trivial

theorem ofContent_of_readUnder {kind : ArtifactKind} {body : Value} {e : ConstructionError}
    (h : readUnder kind body = .error e) : e.OfContent := by
  obtain h | ⟨d, -, h⟩ := bind_eq_error_iff.1 h
  · obtain ⟨_, -, rfl⟩ := mapError_eq_error_iff.1 h
    trivial
  · obtain h | ⟨⟨⟩, -, h⟩ := bind_eq_error_iff.1 h
    · obtain ⟨_, -, rfl⟩ := mapError_eq_error_iff.1 h
      trivial
    · cases h

/-- A document is refused for what its bytes say or for its kind. -/
theorem ofContent_or_ofKind_of_read {expected : Option ArtifactKind} {bytes : List UInt8}
    {e : ConstructionError} (h : read expected bytes = .error e) : e.OfContent ∨ e.OfKind := by
  rw [read_eq] at h
  obtain hroot | ⟨⟨kind, body⟩, -, h⟩ := bind_eq_error_iff.1 h
  · exact .inl (ofContent_of_readRoot hroot)
  · cases expected with
    | none => exact .inl (ofContent_of_readUnder h)
    | some other =>
      by_cases hother : other = kind
      · subst hother
        simp only [ne_eq, not_true_eq_false, if_false] at h
        exact .inl (ofContent_of_readUnder h)
      · simp only [ne_eq, hother, not_false_eq_true, if_true] at h
        cases h
        exact .inr ⟨other, kind, rfl⟩

theorem kind_of_decodeRoot {kind : ArtifactKind} {body : Value} {d : PolicyDocument}
    (h : decodeRoot kind body = .ok d) : d.kind = kind := by
  cases kind <;> obtain ⟨_, -, rfl⟩ := map_eq_ok_iff.1 h <;> rfl

theorem kind_of_readUnder {kind : ArtifactKind} {body : Value} {d : PolicyDocument}
    (h : readUnder kind body = .ok d) : d.kind = kind := by
  obtain ⟨document, hdocument, h⟩ := bind_eq_ok_iff.1 h
  obtain ⟨⟨⟩, -, hdone⟩ := bind_eq_ok_iff.1 h
  obtain rfl : document = d := Except.ok.inj hdone
  exact kind_of_decodeRoot (mapError_eq_ok_iff.1 hdocument)

theorem checksKind_read (bytes : List UInt8) : ChecksKind fun expected => read expected bytes := by
  simp only [read_eq]
  cases hroot : readRoot bytes with
  | error e => exact .unread (ofContent_of_readRoot hroot).not_ofKind fun _ => rfl
  | ok root =>
    obtain ⟨kind, body⟩ := root
    refine .found kind ?_ (fun other hother => ?_) (fun d h => kind_of_readUnder h)
      fun e h => (ofContent_of_readUnder h).not_ofKind
    · simp [Bind.bind, Except.bind]
    · simp [Bind.bind, Except.bind, hother, throw, throwThe, MonadExceptOf.throw]

end PolicyDocument

end AccessPolicy
