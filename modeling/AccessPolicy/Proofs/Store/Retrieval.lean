import AccessPolicy.Proofs.Construction.Eager
import AccessPolicy.Proofs.Store.History
import AccessPolicy.Proofs.Version.Pattern

namespace AccessPolicy

namespace PolicyStore

variable {R X : Type} {s t : PolicyStore R X} {id : String} {v : Version} {a : Artifact R X}

/-- The artifact is the only one under the identifier and the version number. -/
def Holds (s : PolicyStore R X) (id : String) (v : Version) (a : Artifact R X) : Prop :=
  (s.versions id).filter (fun e => e.1 = v) = [(v, a)]

theorem holds_insert (hversion : Version.parse a.version = .ok v) (hinsert : insert a s = .ok () t) :
    t.Holds a.id v a := by
  simp [Holds, versions_insert hversion hinsert]

namespace Holds

/-- Insertions under other identifiers or version numbers, and failed ones, leave the artifact where
it is. -/
theorem afterInsert (h : s.Holds id v a) {b : Artifact R X} (hother : key? b ≠ some (id, v)) :
    (s.afterInsert b).Holds id v a := by
  cases hversion : Version.parse b.version with
  | error e =>
    rw [PolicyStore.afterInsert, insert_of_parse_error hversion]
    exact h
  | ok w =>
    have hinsert := insert_of_parse_ok hversion s
    have hkey : key? b = some (b.id, w) := key?_eq_some_iff.2 ⟨rfl, hversion⟩
    simp only [PolicyStore.afterInsert, hinsert, endState, Holds, versions_insert hversion hinsert]
    split
    · next hid =>
      have hne : w ≠ v := fun hw => hother (by rw [hkey, hid, hw])
      have hkept : ((s.versions id).filter fun e => e.1 ≠ w).filter (fun e => e.1 = v) =
          (s.versions id).filter fun e => e.1 = v := by
        rw [List.filter_filter]
        refine List.filter_congr fun e _ => ?_
        by_cases he : e.1 = v
        · simp [he, Ne.symm hne]
        · simp [he]
      rw [List.filter_append, hkept, h]
      simp [hne]
    · exact h

theorem foldl (h : s.Holds id v a) (later : List (Artifact R X))
    (hothers : ∀ b ∈ later, key? b ≠ some (id, v)) :
    (later.foldl PolicyStore.afterInsert s).Holds id v a := by
  induction later generalizing s with
  | nil => exact h
  | cons b later ih =>
    obtain ⟨hb, hlater⟩ := List.forall_mem_cons.1 hothers
    exact ih (h.afterInsert hb) hlater

/-- However many other versions there are, a pattern for one version finds what is held under it. -/
theorem resolve (h : s.Holds id v a) {p : VersionPattern} (hp : p.Pins v) :
    s.resolve id (some p) = .ok a := by
  have hcandidates : s.candidates id (some p) = [(v, a)] := by
    rw [← h, candidates]
    refine List.filter_congr fun e _ => ?_
    rw [Option.all_some, Bool.eq_iff_iff, hp.accepts_iff, decide_eq_true_eq]
  rw [resolve_eq_ok_iff_newest?, hcandidates]
  exact ⟨v, rfl⟩

end Holds

end PolicyStore

variable {R X σ : Type} [DecidableEq R] {sur : Surroundings R X σ}

/-- Whatever a standard constructor builds, every store takes it in, and from then on it is the
answer of the store to its version text as a pattern and to the pattern for its version, whatever is
put in besides it, until something is put in under the same identifier and version number. -/
theorem StandardConstructor.constructed_found_again {c : StandardConstructor} {w w' : World R X σ}
    {a : Artifact R X} (h : c.Constructs sur w a w') :
    ∃ v p, Version.parse a.version = .ok v ∧ VersionPattern.parse a.version = .ok p ∧
      ∀ s : PolicyStore R X, ∃ t, PolicyStore.insert a s = .ok () t ∧
        ∀ later : List (Artifact R X), (∀ b ∈ later, PolicyStore.key? b ≠ some (a.id, v)) →
          (later.foldl PolicyStore.afterInsert t).resolve a.id (some p) = .ok a ∧
          (later.foldl PolicyStore.afterInsert t).resolve a.id (some (.exact v)) = .ok a := by
  obtain ⟨input, expected, hread⟩ := h.readDocument
  obtain ⟨v, hversion⟩ := exists_version_of_readDocument hread
  obtain ⟨p, hpattern, hp⟩ := VersionPattern.exists_pins_of_parse hversion
  refine ⟨v, p, hversion, hpattern, fun s => ?_⟩
  have hinsert := PolicyStore.insert_of_parse_ok hversion s
  refine ⟨_, hinsert, fun later hothers => ?_⟩
  have hheld := (PolicyStore.holds_insert hversion hinsert).foldl later hothers
  exact ⟨hheld.resolve hp, hheld.resolve (VersionPattern.pins_exact v)⟩

/-- A policy whose version begins with zeros and ends with the largest number. -/
def paddedPolicy : Policy :=
  (Policy.new "p" "a").withVersion "007.18446744073709551615"

def paddedArtifact : Artifact Unit Empty :=
  .standard (.policy paddedPolicy) none

theorem construct_paddedArtifact :
    StandardConstructor.default.Constructs StandardConstructor.silentSurroundings (.new ())
      paddedArtifact (.new ()) := by
  obtain ⟨input, hread⟩ := StandardConstructor.default.exists_readDocument_eq_ok
    (d := .policy paddedPolicy) (v := ⟨[7, 18446744073709551615]⟩) (by decide +kernel) rfl
    (by decide +kernel) (by decide +kernel)
  exact ⟨input, .inl ⟨.policy, StandardConstructor.construct_eq_ok_iff.2
    ⟨_, hread (some .policy) (by simp [PolicyDocument.kind]), rfl⟩⟩⟩

/-- A policy of the same identifier with a greater version. -/
def greaterArtifact : Artifact Unit Empty :=
  .standard (.policy ((Policy.new "p" "a").withVersion "8")) none

theorem constructed_found_again_paddedArtifact :
    StandardConstructor.default.Constructs StandardConstructor.silentSurroundings (.new ())
        paddedArtifact (.new ()) ∧
      ∀ s : PolicyStore Unit Empty, ∃ t, PolicyStore.insert paddedArtifact s = .ok () t ∧
        (t.afterInsert greaterArtifact).resolve "p"
          (some (.exact ⟨[7, 18446744073709551615]⟩)) = .ok paddedArtifact := by
  obtain ⟨v, p, hversion, -, hfound⟩ :=
    StandardConstructor.constructed_found_again construct_paddedArtifact
  obtain rfl : ⟨[7, 18446744073709551615]⟩ = v := Except.ok.inj hversion
  refine ⟨construct_paddedArtifact, fun s => ?_⟩
  obtain ⟨t, hinsert, hlater⟩ := hfound s
  exact ⟨t, hinsert, (hlater [greaterArtifact] (by decide)).2⟩

end AccessPolicy
