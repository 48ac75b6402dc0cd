import AccessPolicy.Proofs.Evaluation.History
import AccessPolicy.Proofs.Resolution.Fetching
import AccessPolicy.Proofs.Resolution.Source
import AccessPolicy.Proofs.Store.History

namespace AccessPolicy

section

variable {R X σ : Type} [DecidableEq R] {sur : Surroundings R X σ} {answers : Answers R X}
  {s : Source R} {w : World R X σ}

/-- Resolving for a source remembers nothing for others, and for itself what references mean. -/
theorem World.FaithfulFor.resolve (hpure : sur.PureAt s.resolver (answers s.resolver))
    (hw : w.FaithfulFor answers s) (source : Option (Source R)) (r : Reference) :
    (endState (AccessPolicy.resolve sur source r w)).FaithfulFor answers s := by
  by_cases hsource : source = some s
  · subst hsource
    obtain ⟨w', hworld, hresolve⟩ :=
      resolve_eq_meaning_of_answersIn (fun id pattern => hpure id pattern _) hw r
    rw [hresolve, endState_outcomeIn]
    obtain rfl | ⟨a, hmeaning, rfl⟩ := hworld
    · exact hw
    · exact hw.remember hmeaning
  · intro q a hremembered
    have hother : (some s, q.key) ≠ (source, r.key) :=
      fun heq => hsource (Prod.mk.inj heq).1.symm
    rw [← World.known?_some, World.known?_resolve_of_ne sur hother] at hremembered
    exact hw q a hremembered

theorem World.History.faithfulFor (hpure : sur.PureAt s.resolver (answers s.resolver))
    (h : w.History sur) : w.FaithfulFor answers s :=
  h.invariant (fun source r _ hw => hw.resolve hpure source r) (fun _ _ hw => hw)
    (fun outside => faithful_new answers outside s) (fun _ _ hw => hw)

/-- Whatever has been constructed and evaluated before, a reference resolves to what it means. -/
theorem exists_resolve_eq_ok_iff
    {answer : String → Option VersionPattern → Except ResolutionError (Artifact R X)}
    {r : Reference} {a : Artifact R X} (hpure : sur.PureAt s.resolver answer) (hw : w.History sur) :
    (∃ w', resolve sur (some s) r w = .ok a w') ↔
      Answers.meaning (fun _ => answer) (some s) r = .ok a := by
  have hfaithful : w.FaithfulFor (fun _ => answer) s := hw.faithfulFor hpure
  obtain ⟨v, -, hresolve⟩ := resolve_eq_meaning_of_answersIn
    (fun id pattern => hpure id pattern _) hfaithful r
  rw [hresolve]
  cases Answers.meaning (fun _ => answer) (some s) r <;> simp [outcomeIn]

end

namespace PolicyStore

variable {R X : Type} {history : List (Artifact R X)} {id : String}
  {pattern : Option VersionPattern} {a : Artifact R X}

/-- Something is stored under the identifier and the version number, and the pattern accepts it. -/
def Offers (history : List (Artifact R X)) (id : String) (pattern : Option VersionPattern)
    (v : Version) : Prop :=
  (id, v) ∈ keys history ∧ Accepts pattern v

/-- An answer states the greatest version on offer. -/
theorem IsAnswer.greatest (h : IsAnswer history id pattern a) :
    a.id = id ∧ ∃ v, Version.parse a.version = .ok v ∧ Offers history id pattern v ∧
      ∀ x, Offers history id pattern x → ¬v < x := by
  obtain ⟨v, hlast, haccepts, hgreatest⟩ := h
  obtain ⟨hid, hversion⟩ := key?_eq_some_iff.1 (key?_of_lastInserted hlast)
  refine ⟨hid, v, hversion, ⟨mem_keys_iff.2 ⟨a, hlast⟩, haccepts⟩, fun x ⟨hstored, hx⟩ => ?_⟩
  obtain ⟨b, hb⟩ := mem_keys_iff.1 hstored
  rw [Version.not_lt_iff, Version.lt_iff_precedes]
  exact hgreatest x b hb hx

end PolicyStore

/-- The version is one that the reference allows: its pattern accepts it, and it lies within the
limits that are version numbers. -/
structure IdReference.Allows (r : IdReference) (v : Version) : Prop where
  pattern : ∀ p, r.pattern = .ok p → PolicyStore.Accepts p v
  earliest : ∀ text u, r.earliest = some text → Version.parse text = .ok u → ¬v < u
  latest : ∀ text u, r.latest = some text → Version.parse text = .ok u → ¬u < v

variable {R X σ : Type} [DecidableEq R] {sur : Surroundings R X σ}

/-- The limits are not looked at. -/
theorem resolve_congr {q r : Reference} (h : q.key = r.key) (source : Option (Source R)) :
    resolve sur source q = resolve sur source r := by
  obtain ⟨kind, value, version, earliest, latest⟩ := q
  obtain ⟨kind', value', version', earliest', latest'⟩ := r
  simp only [Reference.key, ReferenceKey.mk.injEq] at h
  obtain ⟨rfl, rfl, rfl⟩ := h
  rfl

/-- Through a store a reference resolves to the answer to its pattern, if that is of its kind,
whatever limits it states. So what it resolves to has the identifier of the reference, and of the
stored versions that the pattern accepts it has the greatest. It keeps to the earliest version as
soon as one of those does, and to the latest version only if all of them do. -/
theorem resolved_version {history : List (Artifact R X)} {s : Source R} {w : World R X σ}
    (hstore : sur.PureAt s.resolver (PolicyStore.stored history).resolve) (hw : w.History sur)
    (r : Reference) (a : Artifact R X) :
    ((∃ w', resolve sur (some s) r w = .ok a w') ↔
      a.kind = r.kind ∧ ∃ p, r.target.pattern = .ok p ∧
        PolicyStore.IsAnswer history r.target.value p a) ∧
    (∀ earliest latest, resolve sur (some s)
      ⟨r.kind, { r.target with earliest := earliest, latest := latest }⟩ w =
        resolve sur (some s) r w) ∧
    ∀ w', resolve sur (some s) r w = .ok a w' →
      a.kind = r.kind ∧ a.id = r.target.value ∧
      ∃ p v, r.target.pattern = .ok p ∧ Version.parse a.version = .ok v ∧
        PolicyStore.Offers history a.id p v ∧
        (∀ x, PolicyStore.Offers history a.id p x → ¬v < x) ∧
        (r.target.Allows v ↔
          (∀ text u, r.target.earliest = some text → Version.parse text = .ok u →
            ∃ x, PolicyStore.Offers history a.id p x ∧ ¬x < u) ∧
          (∀ text u, r.target.latest = some text → Version.parse text = .ok u →
            ∀ x, PolicyStore.Offers history a.id p x → ¬u < x)) := by
  have hresolves : (∃ w', resolve sur (some s) r w = .ok a w') ↔
      a.kind = r.kind ∧ ∃ p, r.target.pattern = .ok p ∧
        PolicyStore.IsAnswer history r.target.value p a := by
    rw [exists_resolve_eq_ok_iff hstore hw, Answers.meaning_eq_ok_iff]
    simp only [(PolicyStore.keeps_stored history).resolve_eq_ok_iff, ← and_assoc, exists_and_right]
    exact and_comm
  refine ⟨hresolves, fun earliest latest => congrFun (resolve_congr rfl (some s)) w, fun w' h => ?_⟩
  obtain ⟨hkind, p, hpattern, hanswer⟩ := hresolves.1 ⟨w', h⟩
  obtain ⟨hid, v, hversion, hoffered, hgreatest⟩ := hanswer.greatest
  rw [← hid] at hoffered hgreatest
  refine ⟨hkind, hid, p, v, hpattern, hversion, hoffered, hgreatest, fun hallows => ⟨?_, ?_⟩,
    fun ⟨hearliest, hlatest⟩ => ⟨?_, ?_, ?_⟩⟩
  · exact fun text u htext hu => ⟨v, hoffered, hallows.earliest text u htext hu⟩
  · intro text u htext hu x hx hlt
    exact hallows.latest text u htext hu (Version.lt_of_lt_of_not_lt hlt (hgreatest x hx))
  · intro q hq
    obtain rfl : p = q := Except.ok.inj (hpattern.symm.trans hq)
    exact hoffered.2
  · intro text u htext hu hlt
    obtain ⟨x, hx, hnot⟩ := hearliest text u htext hu
    exact hnot (Version.lt_of_not_lt_of_lt (hgreatest x hx) hlt)
  · exact fun text u htext hu => hlatest text u htext hu v hoffered

/-- Surroundings with one resolver, a store that nothing is put into. -/
def PolicyStore.surroundings (s : PolicyStore Unit Empty) : Surroundings Unit Empty Unit where
  lookUp _ id pattern := outcomeIn (s.resolve id pattern)
  decide x := x.elim

/-- A version of a policy. -/
def issue (version : String) : Artifact Unit Empty :=
  .standard (.policy ((Policy.new "p" "a").withVersion version)) none

/-- Asks for the policy in a version up to the first. -/
def referenceUpToFirst : Reference :=
  ⟨.policy, ⟨"p", none, none, some "1.0"⟩⟩

theorem resolved_version_issues :
    ∃ w', resolve (PolicyStore.stored [issue "2.0", issue "1.0"]).surroundings (some ⟨(), 0⟩)
        referenceUpToFirst (.new ()) = .ok (issue "2.0") w' ∧
      ∃ v, Version.parse (issue "2.0").version = .ok v ∧
        ∀ x, PolicyStore.Offers [issue "2.0", issue "1.0"] "p" none x → ¬v < x := by
  have h : resolve (PolicyStore.stored [issue "2.0", issue "1.0"]).surroundings (some ⟨(), 0⟩)
      referenceUpToFirst (.new ()) = .ok (issue "2.0") _ := rfl
  have hstore : (PolicyStore.stored [issue "2.0", issue "1.0"]).surroundings.PureAt ()
      (PolicyStore.stored [issue "2.0", issue "1.0"]).resolve := fun _ _ _ => rfl
  obtain ⟨-, -, hresolved⟩ := resolved_version (s := ⟨(), 0⟩) hstore (.new ()) referenceUpToFirst
    (issue "2.0")
  obtain ⟨-, -, p, v, hpattern, hversion, -, hgreatest, -⟩ := hresolved _ h
  obtain rfl : none = p := Except.ok.inj hpattern
  exact ⟨_, h, v, hversion, hgreatest⟩

/-- The second version of a policy is given for a reference to a version up to the first. -/
theorem latest_exceeded :
    ∃ w', resolve (PolicyStore.stored [issue "2.0"]).surroundings (some ⟨(), 0⟩)
        referenceUpToFirst (.new ()) = .ok (issue "2.0") w' ∧
      referenceUpToFirst.target.latest = some "1.0" ∧
      ∃ u v, Version.parse "1.0" = .ok u ∧ Version.parse (issue "2.0").version = .ok v ∧ u < v :=
  ⟨_, rfl, rfl, ⟨[1, 0]⟩, ⟨[2, 0]⟩, by decide +kernel, by decide +kernel, by decide⟩

end AccessPolicy
