import AccessPolicy.Proofs.Construction.Agreement
import AccessPolicy.Proofs.Document.Spelling

namespace AccessPolicy.StandardConstructor

open Json

variable {R X σ : Type} [DecidableEq R] {c : StandardConstructor} {sur : Surroundings R X σ}
  {answer : String → Option VersionPattern → Except ResolutionError (Artifact R X)}

/-- What comes of a construction: the document of the artifact and what it is marshalled to, or the
error. -/
def outcomeOf : EStateM.Result ConstructionError (World R X σ) (Artifact R X) →
    Except ConstructionError (PolicyDocument × Except MarshalError (List UInt8))
  | .ok a _ => .ok (a.document, a.marshal)
  | .error e _ => .error e

theorem BuiltAlike.outcomeOf_eq
    {x y : EStateM.Result ConstructionError (World R X σ) (Artifact R X)} (h : BuiltAlike x y) :
    outcomeOf x = outcomeOf y := by
  cases h with
  | ok hdocument => simp only [outcomeOf, Artifact.marshal, hdocument]
  | error => rfl

/-- In one world both constructions do the same, and at two times they come to the same. -/
structure Interchangeable (x y : Constructing R X σ (Artifact R X)) : Prop where
  eq : x = y
  outcome : ∀ w v : World R X σ, w.Numbered → v.Numbered → outcomeOf (x w) = outcomeOf (y v)

theorem Interchangeable.of_builtAlike {x y : Constructing R X σ (Artifact R X)} (heq : x = y)
    (h : ∀ w v : World R X σ, w.Numbered → v.Numbered → BuiltAlike (x w) (x v)) :
    Interchangeable x y :=
  ⟨heq, fun w v hw hv => heq ▸ (h w v hw hv).outcomeOf_eq⟩

/-- Without a resolver nothing is asked, so that the first reference decides in every world. -/
theorem builtAlike_build_none (d : PolicyDocument) (w v : World R X σ) :
    BuiltAlike (c.build sur d none w) (c.build sur d none v) := by
  unfold build
  cases c.resolution with
  | lazy => exact .ok rfl (fun _ => rfl) rfl
  | eager =>
    cases hreferences : d.references with
    | nil => exact .ok rfl (fun _ => rfl) rfl
    | cons r rest => exact .error

theorem builtAlike_construct (input : ByteStream) (kind : ArtifactKind) (w v : World R X σ) :
    BuiltAlike ((c.construct sur kind).on input w) ((c.construct sur kind).on input v) := by
  rw [on_construct]
  cases (c.readDocument (some kind)).on input with
  | error e => exact .error
  | ok d => exact builtAlike_build_none d w v

variable {bytes bytes' : List UInt8} {v w : Value}

theorem readDocument_respelled (hv : IsText bytes v) (hw : IsText bytes' w)
    (hsize : bytes.length ≤ c.maxDocumentBytes.toNat)
    (hsize' : bytes'.length ≤ c.maxDocumentBytes.toNat) (h : RespelledDocument v w)
    (expected : Option ArtifactKind) :
    (c.readDocument expected).on (.ofBytes bytes) =
      (c.readDocument expected).on (.ofBytes bytes') := by
  rw [on_readDocument, on_readDocument, readBytes_ofBytes hsize, readBytes_ofBytes hsize']
  exact PolicyDocument.read_respelled hv hw h expected

/-- Spelling does not change a document. From texts of one document that keep to the limits of
size and of nesting, each operation of a standard constructor makes the same of either, while the
resolver always answers alike: the same document, marshalled to the same bytes, or the same
error. -/
theorem construct_respelled {resolver : R} (hpure : sur.PureAt resolver answer)
    (hv : IsText bytes v) (hw : IsText bytes' w) (hsize : bytes.length ≤ c.maxDocumentBytes.toNat)
    (hsize' : bytes'.length ≤ c.maxDocumentBytes.toNat) (h : RespelledDocument v w) :
    (∀ kind, Interchangeable (((c.toConstructor sur).construct kind).on (.ofBytes bytes))
      (((c.toConstructor sur).construct kind).on (.ofBytes bytes'))) ∧
    (∀ kind,
      Interchangeable
        (((c.toConstructor sur).constructWithResolver kind resolver).on (.ofBytes bytes))
        (((c.toConstructor sur).constructWithResolver kind resolver).on (.ofBytes bytes'))) ∧
    Interchangeable (((c.toConstructor sur).constructInferred resolver).on (.ofBytes bytes))
      (((c.toConstructor sur).constructInferred resolver).on (.ofBytes bytes')) := by
  have hread := readDocument_respelled hv hw hsize hsize' h
  have hresolving (expected : Option ArtifactKind) :
      Interchangeable ((c.constructResolving sur expected resolver).on (.ofBytes bytes))
        ((c.constructResolving sur expected resolver).on (.ofBytes bytes')) := by
    refine .of_builtAlike ?_ fun _ _ => builtAlike_constructResolving hpure _ expected
    rw [on_constructResolving, on_constructResolving, hread]
  refine ⟨fun kind => ?_, fun kind => hresolving (some kind), hresolving none⟩
  refine .of_builtAlike ?_ fun _ _ _ _ => builtAlike_construct _ kind _ _
  change (c.construct sur kind).on _ = (c.construct sur kind).on _
  rw [on_construct, on_construct, hread]

/-- A rule with a note, which is no field of it. -/
def notedRule : Value :=
  .object [("RuleId", .string "r"), ("Note", .string "n"), ("Effect", .string "Permit")]

/-- The rule with a target that is written as missing. -/
def plainRule : Value :=
  .object [("Effect", .string "Permit"), ("Target", .null), ("RuleId", .string "r")]

def shortPolicy : Value :=
  .object [("PolicyId", .string "p"), ("RuleCombiningAlgId", .string "a"),
    ("Content", .array [variant "Rule" notedRule])]

/-- The policy with its version, which is the default, and its members in another order. -/
def longPolicy : Value :=
  .object [("Version", .string "1.0"), ("Content", .array [variant "Rule" plainRule]),
    ("RuleCombiningAlgId", .string "a"), ("PolicyId", .string "p")]

theorem respelled_rule : Respelled (.element .rule) notedRule.sorted plainRule.sorted := by
  have hnull : Value.null = Value.null.sorted := by simp [Value.sorted]
  refine .record rfl ⟨trivial, ?_, nofun⟩ ?_ nofun
  · simpa [notedRule, plainRule, field?_sorted, Schema.plain, Entry.required, Entry.optional,
      Entry.AlikeWritten] using hnull
  · simp [notedRule, plainRule, field?_sorted, Schema.plain, Entry.required, Entry.optional,
      Respelled.same]

theorem respelled_policy : Respelled (.element .policy) shortPolicy.sorted longPolicy.sorted := by
  have hversion : Value.string defaultVersion = (Value.string "1.0").sorted := rfl
  have hcontent : Respelled (.list (.member PolicyMember.kinds))
      (Value.array [variant "Rule" notedRule]).sorted
      (Value.array [variant "Rule" plainRule]).sorted := by
    refine .list rfl fun i v w hv hw => ?_
    cases i with
    | zero =>
      obtain rfl := Option.some.inj hv
      obtain rfl := Option.some.inj hw
      rw [sorted_variant, sorted_variant]
      exact .member (by decide) respelled_rule
    | succ i => cases hv
  refine .record rfl ⟨trivial, ?_, nofun⟩ ?_ nofun
  · simpa [shortPolicy, longPolicy, field?_sorted, Schema.plain, Entry.required, Entry.optional,
      Entry.defaulted, Entry.list, Entry.AlikeWritten] using hversion
  · simp [shortPolicy, longPolicy, field?_sorted, Schema.plain, Entry.required, Entry.optional,
      Entry.defaulted, Entry.list, Respelled.same, hcontent]

def envelopeBytes (policy : Value) : List UInt8 :=
  Text.Utf8.encode (Value.object
    [("xmlns", .string policyNamespace), (ElementKind.policy.localName, policy)]).text.toList

theorem construct_respelled_policy :
    Interchangeable
      (((eagerConstructor.toConstructor silentSurroundings).construct .policy).on
        (.ofBytes (envelopeBytes shortPolicy)))
      (((eagerConstructor.toConstructor silentSurroundings).construct .policy).on
        (.ofBytes (envelopeBytes longPolicy))) ∧
    Interchangeable
      (((eagerConstructor.toConstructor silentSurroundings).constructWithResolver .policySet ()).on
        (.ofBytes (envelopeBytes shortPolicy)))
      (((eagerConstructor.toConstructor silentSurroundings).constructWithResolver .policySet ()).on
        (.ofBytes (envelopeBytes longPolicy))) ∧
    Interchangeable
      (((eagerConstructor.toConstructor silentSurroundings).constructInferred ()).on
        (.ofBytes (envelopeBytes shortPolicy)))
      (((eagerConstructor.toConstructor silentSurroundings).constructInferred ()).on
        (.ofBytes (envelopeBytes longPolicy))) := by
  have hpure : silentSurroundings.PureAt () fun id pattern =>
      .error (.notFound id (pattern.map VersionPattern.source)) := fun _ _ _ => rfl
  have hshort : shortPolicy.Legible := by
    simp [shortPolicy, notedRule, variant, Value.legible_object, Value.legible_array,
      Value.legible_string]
  have hlong : longPolicy.Legible := by
    have hnull : Value.null.Legible := by simp [Value.Legible]
    simp [longPolicy, plainRule, variant, Value.legible_object, Value.legible_array,
      Value.legible_string, hnull]
  have hsize : (envelopeBytes shortPolicy).length ≤ eagerConstructor.maxDocumentBytes.toNat := by
    rw [envelopeBytes, Value.toList_text]
    decide +kernel
  have hsize' : (envelopeBytes longPolicy).length ≤ eagerConstructor.maxDocumentBytes.toNat := by
    rw [envelopeBytes, Value.toList_text]
    decide +kernel
  obtain ⟨hconstruct, hresolving, hinferred⟩ := construct_respelled (c := eagerConstructor) hpure
    (isText_text (by simp [Value.legible_object, Value.legible_string, hshort]) (by decide +kernel))
    (isText_text (by simp [Value.legible_object, Value.legible_string, hlong]) (by decide +kernel))
    hsize hsize' (respelled_envelope respelled_policy)
  exact ⟨hconstruct .policy, hresolving .policySet, hinferred⟩

end AccessPolicy.StandardConstructor
