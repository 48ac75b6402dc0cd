import AccessPolicy.Proofs.Construction.Canonical
import AccessPolicy.Proofs.Document.ExpectedKind
import AccessPolicy.Proofs.Evaluation.Unwinding
import AccessPolicy.Proofs.Factory.Routing

namespace AccessPolicy

/-- The error is about the stream that a document is read from. -/
def ConstructionError.OfStream : ConstructionError → Prop
  | .io _ => True
  | .tooLarge _ => True
  | _ => False

theorem ConstructionError.OfContent.not_ofStream {e : ConstructionError} (h : e.OfContent) :
    ¬ e.OfStream := by
  cases e with
  | malformed => exact id
  | schema => exact id
  | _ => exact h.elim

theorem ConstructionError.OfKind.not_ofStream {e : ConstructionError} (h : e.OfKind) :
    ¬ e.OfStream := by
  obtain ⟨expected, actual, rfl⟩ := h
  exact id

theorem PolicyDocument.not_ofStream_of_read {expected : Option ArtifactKind} {bytes : List UInt8}
    {e : ConstructionError} (h : read expected bytes = .error e) : ¬ e.OfStream :=
  (ofContent_or_ofKind_of_read h).elim (·.not_ofStream) (·.not_ofStream)

namespace Call

variable {R : Type}

/-- The kind that the document must have, if the call asks for one. -/
def expected : Call R → Option ArtifactKind
  | .construct _ kind => some kind
  | .constructWithResolver _ kind _ => some kind
  | .constructInferred _ _ => none

/-- The resolver that a source is opened for. -/
def resolver : Call R → Option R
  | .construct _ _ => none
  | .constructWithResolver _ _ resolver => some resolver
  | .constructInferred _ resolver => some resolver

@[simp]
theorem expected_withInput (call : Call R) (t : ByteStream) :
    (call.withInput t).expected = call.expected := by
  cases call <;> rfl

@[simp]
theorem resolver_withInput (call : Call R) (t : ByteStream) :
    (call.withInput t).resolver = call.resolver := by
  cases call <;> rfl

end Call

namespace StandardConstructor

variable {R X σ : Type} [DecidableEq R]

/-- The constructor under the highest limit. -/
def unlimited (c : StandardConstructor) : StandardConstructor :=
  { c with maxDocumentBytes := 18446744073709551615 }

/-- What comes of a call once the document is read. -/
def buildFor (c : StandardConstructor) (sur : Surroundings R X σ) (call : Call R)
    (d : PolicyDocument) : Constructing R X σ (Artifact R X) := fun w =>
  match call.resolver with
  | none => c.build sur d none w
  | some resolver => c.build sur d (some (w.openSource resolver).1) (w.openSource resolver).2

/-- The operations differ in the kind and the resolver that they are given, and in nothing else. -/
theorem operation_eq (c : StandardConstructor) (sur : Surroundings R X σ) (call : Call R) :
    (c.toConstructor sur).operation call =
      Consuming.reading (c.readDocument call.expected) >>= fun d =>
        Consuming.constructing (c.buildFor sur call d) := by
  cases call <;> rfl

theorem answer_eq (c : StandardConstructor) (sur : Surroundings R X σ) (call : Call R)
    (w : World R X σ) :
    (c.toConstructor sur).answer call w =
      match (c.readDocument call.expected).on call.input with
      | .error e => .error e w
      | .ok d => c.buildFor sur call d w := by
  rw [Constructor.answer, operation_eq, Consuming.on_reading_bind]
  cases (c.readDocument call.expected).on call.input <;> rfl

/-- Whatever comes of a call, it takes from its stream what reading the document takes. -/
theorem leaves_eq (c : StandardConstructor) (sur : Surroundings R X σ) (call : Call R)
    (w : World R X σ) :
    (c.toConstructor sur).leaves call w =
      { call.input with bytes := call.input.bytes.drop (probeLength c.maxDocumentBytes) } := by
  rw [Constructor.leaves, operation_eq, Consuming.endState_reading_bind, endState_readDocument,
    endState_readBytes]

theorem not_ofStream_of_buildFor {c : StandardConstructor} {sur : Surroundings R X σ}
    {call : Call R} {d : PolicyDocument} {e : ConstructionError} {w w' : World R X σ}
    (h : c.buildFor sur call d w = .error e w') : ¬ e.OfStream := by
  simp only [buildFor] at h
  split at h <;>
  · obtain ⟨r, rfl⟩ := exists_resolution_of_build h
    exact id

/-- Only reading from the stream gives an error about the stream, and then nothing has been done. -/
theorem answer_eq_error_iff {c : StandardConstructor} {sur : Surroundings R X σ} {call : Call R}
    {e : ConstructionError} {w w' : World R X σ} (he : e.OfStream) :
    (c.toConstructor sur).answer call w = .error e w' ↔
      w' = w ∧ (readBytes c.maxDocumentBytes).on call.input = .error e := by
  rw [answer_eq, on_readDocument]
  cases hread : (readBytes c.maxDocumentBytes).on call.input with
  | error e' => simp [Except.bind, eq_comm, and_comm]
  | ok bytes =>
    refine iff_of_false (fun h => ?_) (fun h => by cases h.2)
    simp only [Except.bind] at h
    split at h
    · next e' hdocument =>
      cases h
      exact PolicyDocument.not_ofStream_of_read hdocument he
    · exact not_ofStream_of_buildFor h he

theorem answer_congr {c c' : StandardConstructor} {sur : Surroundings R X σ} {call call' : Call R}
    (hmode : c'.resolution = c.resolution) (hexpected : call'.expected = call.expected)
    (hresolver : call'.resolver = call.resolver)
    (hread : (readBytes c'.maxDocumentBytes).on call'.input =
      (readBytes c.maxDocumentBytes).on call.input)
    (w : World R X σ) :
    (c'.toConstructor sur).answer call' w = (c.toConstructor sur).answer call w := by
  simp only [answer_eq, on_readDocument, buildFor, build, hmode, hexpected, hresolver, hread]

/-- The limit of size only rejects. Whichever operation is called, a standard constructor refuses a
stream as too large if it is longer than the limit, and no stream under the highest limit. It
reports a failure of the stream if that comes within the limit. Every other stream is answered as
under the highest limit. Whatever comes of the call, it takes no more than one byte beyond the limit
from the front of its stream, and nothing that comes later in the stream makes a difference. -/
theorem size_limit_only_rejects (c : StandardConstructor) (sur : Surroundings R X σ) (call : Call R)
    (w : World R X σ) (hcount : call.input.bytes.length < UInt64.size - 1) :
    (∀ limit w', (c.toConstructor sur).answer call w = .error (.tooLarge limit) w' ↔
      limit = c.maxDocumentBytes ∧ w' = w ∧
        c.maxDocumentBytes.toNat + 1 ≤ call.input.bytes.length) ∧
    (c.maxDocumentBytes = 18446744073709551615 → ∀ limit w',
      (c.toConstructor sur).answer call w ≠ .error (.tooLarge limit) w') ∧
    (∀ e w', (c.toConstructor sur).answer call w = .error (.io e) w' ↔
      w' = w ∧ call.input.failure = some e ∧
        call.input.bytes.length ≤ c.maxDocumentBytes.toNat) ∧
    (call.input.bytes.length ≤ c.maxDocumentBytes.toNat →
      (c.toConstructor sur).answer call w = (c.unlimited.toConstructor sur).answer call w) ∧
    (∃ taken, taken.length ≤ c.maxDocumentBytes.toNat + 1 ∧
      call.input.bytes = taken ++ ((c.toConstructor sur).leaves call w).bytes) ∧
    ∀ t : ByteStream,
      t.bytes.take (c.maxDocumentBytes.toNat + 1) =
        call.input.bytes.take (c.maxDocumentBytes.toNat + 1) →
      (call.input.bytes.length ≤ c.maxDocumentBytes.toNat → t.failure = call.input.failure) →
      (c.toConstructor sur).answer (call.withInput t) w = (c.toConstructor sur).answer call w := by
  refine ⟨fun limit w' => ?_, fun hhighest limit w' h => ?_, fun e w' => ?_, fun hsmall => ?_, ?_,
    fun t hbytes hfailure => ?_⟩
  · rw [answer_eq_error_iff (e := .tooLarge limit) trivial, readBytes_eq_tooLarge_iff hcount]
    exact and_left_comm
  · rw [answer_eq_error_iff (e := .tooLarge limit) trivial, readBytes_eq_tooLarge_iff hcount] at h
    obtain ⟨-, -, hlarge⟩ := h
    rw [hhighest] at hlarge
    exact absurd hcount (Nat.not_lt_of_le (Nat.le_of_succ_le hlarge))
  · rw [answer_eq_error_iff (e := .io e) trivial, readBytes_eq_io_iff hcount]
  · refine answer_congr (c := c.unlimited) ?_ rfl rfl ?_ w
    · rfl
    have hsmall' : call.input.bytes.length ≤ c.unlimited.maxDocumentBytes.toNat :=
      Nat.le_of_lt hcount
    rw [readBytes_eq hcount, readBytes_eq hcount, if_neg (Nat.not_lt.2 hsmall),
      if_neg (Nat.not_lt.2 hsmall')]
  · refine ⟨call.input.bytes.take (probeLength c.maxDocumentBytes), ?_, ?_⟩
    · exact Nat.le_trans (List.length_take_le _ _) (probeLength_le _)
    · rw [leaves_eq]
      exact (List.take_append_drop _ _).symm
  · refine answer_congr rfl (call.expected_withInput t) (call.resolver_withInput t) ?_ w
    rw [call.input_withInput]
    exact readBytes_congr hbytes hfailure

/-- The call for a stream that fails after some bytes. -/
def brokenCall (bytes : List UInt8) : Call Unit :=
  .constructInferred ⟨bytes, some .writeZero⟩ ()

/-- A stream that fails at the limit is reported to fail; a byte more, and it is too large. -/
theorem size_limit_only_rejects_at_limit :
    ((⟨.lazy, 1⟩ : StandardConstructor).toConstructor silentSurroundings).answer
        (brokenCall [123]) (.new ()) = .error (.io .writeZero) (.new ()) ∧
      ((⟨.lazy, 1⟩ : StandardConstructor).toConstructor silentSurroundings).answer
        (brokenCall [123, 125]) (.new ()) = .error (.tooLarge 1) (.new ()) := by
  obtain ⟨-, -, hfailure, -⟩ := size_limit_only_rejects ⟨.lazy, 1⟩ silentSurroundings
    (brokenCall [123]) (.new ()) (by decide)
  obtain ⟨hlarge, -⟩ := size_limit_only_rejects ⟨.lazy, 1⟩ silentSurroundings
    (brokenCall [123, 125]) (.new ()) (by decide)
  exact ⟨(hfailure _ _).2 ⟨rfl, rfl, by decide⟩, (hlarge _ _).2 ⟨rfl, rfl, by decide⟩⟩

end StandardConstructor

end AccessPolicy
