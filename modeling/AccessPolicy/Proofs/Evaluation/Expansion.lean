import AccessPolicy.Proofs.Evaluation.ReferencePath

namespace AccessPolicy

variable {R X : Type}

/-- The members of a set in a document with the source, and the same members with each reference
replaced by the policy or the expanded set that it means. -/
inductive Expands (answers : Answers R X) :
    Option (Source R) → List (SetMember PolicySet) → List (SetMember PolicySet) → Prop
  | nil {source : Option (Source R)} : Expands answers source [] []
  | policy {source : Option (Source R)} {p : Policy} {ms es : List (SetMember PolicySet)}
      (hrest : Expands answers source ms es) :
      Expands answers source (.policy p :: ms) (.policy p :: es)
  | policySet {source : Option (Source R)} {s : PolicySet}
      {content ms es : List (SetMember PolicySet)}
      (hinner : Expands answers source s.content content)
      (hrest : Expands answers source ms es) :
      Expands answers source (.policySet s :: ms) (.policySet { s with content } :: es)
  | policyReference {source inner : Option (Source R)} {r : IdReference} {p : Policy}
      {ms es : List (SetMember PolicySet)}
      (hmeaning : answers.meaning source ⟨.policy, r⟩ = .ok (.standard (.policy p) inner))
      (hrest : Expands answers source ms es) :
      Expands answers source (.reference .policy r :: ms) (.policy p :: es)
  | setReference {source inner : Option (Source R)} {r : IdReference} {s : PolicySet}
      {content ms es : List (SetMember PolicySet)}
      (hmeaning : answers.meaning source ⟨.policySet, r⟩ = .ok (.standard (.policySet s) inner))
      (hinner : Expands answers inner s.content content) (hrest : Expands answers source ms es) :
      Expands answers source (.reference .policySet r :: ms) (.policySet { s with content } :: es)
  | parameters {source : Option (Source R)} {ps : List CombinerParameter}
      {ms es : List (SetMember PolicySet)} (hrest : Expands answers source ms es) :
      Expands answers source (.parameters ps :: ms) (.parameters ps :: es)
  | policyParameters {source : Option (Source R)} {ps : ScopedParameters}
      {ms es : List (SetMember PolicySet)} (hrest : Expands answers source ms es) :
      Expands answers source (.policyParameters ps :: ms) (.policyParameters ps :: es)
  | setParameters {source : Option (Source R)} {ps : ScopedParameters}
      {ms es : List (SetMember PolicySet)} (hrest : Expands answers source ms es) :
      Expands answers source (.setParameters ps :: ms) (.setParameters ps :: es)

theorem Expands.unique {answers : Answers R X} {source : Option (Source R)}
    {ms es fs : List (SetMember PolicySet)} (h : Expands answers source ms es)
    (h' : Expands answers source ms fs) : es = fs := by
  induction h generalizing fs with
  | nil => cases h'; rfl
  | policy _ ih => cases h' with | policy hrest => rw [ih hrest]
  | policySet _ _ ihinner ih =>
    cases h' with | policySet hinner hrest => rw [ihinner hinner, ih hrest]
  | policyReference hmeaning _ ih =>
    cases h' with
    | policyReference hmeaning' hrest =>
      cases hmeaning.symm.trans hmeaning'
      rw [ih hrest]
  | setReference hmeaning _ _ ihinner ih =>
    cases h' with
    | setReference hmeaning' hinner hrest =>
      cases hmeaning.symm.trans hmeaning'
      rw [ihinner hinner, ih hrest]
  | parameters _ ih => cases h' with | parameters hrest => rw [ih hrest]
  | policyParameters _ ih => cases h' with | policyParameters hrest => rw [ih hrest]
  | setParameters _ ih => cases h' with | setParameters hrest => rw [ih hrest]

/-- No reference is left in an expansion. -/
theorem Expands.referencesOf_eq_nil {answers : Answers R X} {source : Option (Source R)}
    {ms es : List (SetMember PolicySet)} (h : Expands answers source ms es) :
    PolicySet.referencesOf es = [] := by
  induction h with
  | nil => rw [PolicySet.referencesOf]
  | policySet _ _ ihinner ih =>
    simp only [PolicySet.referencesOf, PolicySet.references_eq, ihinner, ih]; rfl
  | setReference _ _ _ ihinner ih =>
    simp only [PolicySet.referencesOf, PolicySet.references_eq, ihinner, ih]; rfl
  | policy _ ih | policyReference _ _ ih | parameters _ ih | policyParameters _ ih
    | setParameters _ ih => simpa only [PolicySet.referencesOf] using ih

/-- Every reference that can be come to resolves, and no path of references has an artifact twice or
holds more artifacts than the limit. -/
structure Resolvable (answers : Answers R X) (root : Artifact R X) : Prop where
  resolves : ∀ d source path r, ReferencePath answers root (.standard d source :: path) →
    r ∈ d.references → ∃ b, answers.meaning source r = .ok b
  nodup : ∀ path, ReferencePath answers root path → (path.map Artifact.key).Nodup
  length_le : ∀ path, ReferencePath answers root path → path.length ≤ EvaluationChain.limit

/-- The end of a path of references has a place on the chain of the others. -/
theorem Resolvable.place {answers : Answers R X} {root a : Artifact R X}
    {outer : List (Artifact R X)} (hroot : Resolvable answers root)
    (hpath : ReferencePath answers root (a :: outer)) :
    a.key ∉ outer.map Artifact.key ∧ outer.length < EvaluationChain.limit :=
  ⟨(List.nodup_cons.1 (hroot.nodup _ hpath)).1, hroot.length_le _ hpath⟩

section

variable {answers : Answers R Empty} {root : Artifact R Empty} {outer : List (Artifact R Empty)}
  {source : Option (Source R)}

mutual

theorem exists_expands_set (hroot : Resolvable answers root)
    (hpath : ReferencePath answers root outer)
    (hnext : ∀ s inner, ReferencePath answers root (.standard (.policySet s) inner :: outer) →
      ∃ es, Expands answers inner s.content es) :
    (s : PolicySet) → StandsIn source (PolicySet.referencesOf s.content) outer →
      ∃ es, Expands answers source s.content es
  | ⟨_, _, _, _, _, _, content, _⟩, hstands =>
    exists_expands_members hroot hpath hnext content hstands

theorem exists_expands_members (hroot : Resolvable answers root)
    (hpath : ReferencePath answers root outer)
    (hnext : ∀ s inner, ReferencePath answers root (.standard (.policySet s) inner :: outer) →
      ∃ es, Expands answers inner s.content es) :
    (ms : List (SetMember PolicySet)) → StandsIn source (PolicySet.referencesOf ms) outer →
      ∃ es, Expands answers source ms es
  | [], _ => ⟨[], .nil⟩
  | m :: rest, hstands => by
    obtain ⟨es, hrest⟩ := exists_expands_members hroot hpath hnext rest
      (hstands.mono (PolicySet.referencesOf_subset_cons rest m))
    match m with
    | .policy p => exact ⟨_, .policy hrest⟩
    | .policySet s =>
      obtain ⟨content, hinner⟩ := exists_expands_set hroot hpath hnext s
        (hstands.mono (PolicySet.referencesOf_content_subset rest s))
      exact ⟨_, .policySet hinner hrest⟩
    | .reference kind r =>
      have hmem := PolicySet.mem_referencesOf rest kind r
      have hresolves : ∃ b, answers.meaning source ⟨kind, r⟩ = .ok b := by
        obtain ⟨d, path, rfl, hrefs⟩ := hstands
        exact hroot.resolves d source path ⟨kind, r⟩ hpath (hrefs hmem)
      obtain ⟨b, hmeaning⟩ := hresolves
      have hkind := Answers.kind_of_meaning hmeaning
      have hpath' := hstands.refers hpath hmem hmeaning
      match b with
      | .external _ x => exact x.elim
      | .standard (.policy p) inner =>
        obtain rfl : kind = .policy := hkind.symm
        exact ⟨_, .policyReference hmeaning hrest⟩
      | .standard (.policySet s) inner =>
        obtain rfl : kind = .policySet := hkind.symm
        obtain ⟨content, hinner⟩ := hnext s inner hpath'
        exact ⟨_, .setReference hmeaning hinner hrest⟩
    | .parameters _ => exact ⟨_, .parameters hrest⟩
    | .policyParameters _ => exact ⟨_, .policyParameters hrest⟩
    | .setParameters _ => exact ⟨_, .setParameters hrest⟩

end

/-- Following references comes to an end because the paths are bounded. -/
theorem exists_expands (hroot : Resolvable answers root) {s : PolicySet}
    (hpath : ReferencePath answers root (.standard (.policySet s) source :: outer)) :
    ∃ es, Expands answers source s.content es := by
  induction hroom : EvaluationChain.limit - outer.length generalizing s source outer with
  | zero =>
    have hbound := hroot.length_le _ hpath
    rw [List.length_cons] at hbound
    omega
  | succ room ih =>
    refine exists_expands_set hroot hpath (fun t inner hinner => ih hinner ?_) s
      (standsIn_policySet s source outer)
    rw [List.length_cons]
    omega

end

end AccessPolicy
