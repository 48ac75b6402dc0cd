import AccessPolicy.CommandLine.Program
import AccessPolicy.Proofs.Except
import AccessPolicy.Proofs.Resolution.Pure
import AccessPolicy.Proofs.Store.History

namespace AccessPolicy

theorem VersionPattern.source_of_parse {s : String} {p : VersionPattern} (h : parse s = .ok p) :
    p.source = s := by
  unfold parse at h
  split at h
  · cases h
  · obtain ⟨parts, -, rfl⟩ := map_eq_ok_iff.1 h
    rfl

/-- The pattern that a reference states keeps the text that the reference states. -/
theorem IdReference.source_of_pattern {r : IdReference} {pattern : Option VersionPattern}
    (h : r.pattern = .ok pattern) : pattern.map VersionPattern.source = r.version := by
  unfold IdReference.pattern at h
  cases hversion : r.version with
  | none =>
    rw [hversion] at h
    obtain rfl : none = pattern := Except.ok.inj h
    rfl
  | some text =>
    rw [hversion] at h
    obtain ⟨p, hparse, rfl⟩ := map_eq_ok_iff.1 h
    exact congrArg some (VersionPattern.source_of_parse hparse)

namespace CommandLine

/-- Whether a line of a report says that a reference is resolved. -/
def isOkLine (line : String) : Bool :=
  "ok ".toList.isPrefixOf line.toList

theorem isOkLine_reportLine (r : Reference) (f : Finding) :
    isOkLine (reportLine r f) = f.isResolved := by
  unfold isOkLine reportLine
  cases f <;> simp only [String.toList_append, List.append_assoc] <;> rfl

theorem Report.unresolved_eq_countP_lines (r : Report) :
    r.unresolved = r.lines.countP fun line => !isOkLine line := by
  simp only [unresolved, lines, List.countP_map, Function.comp_def, isOkLine_reportLine]

theorem Report.unresolved_eq_zero_iff {r : Report} :
    r.unresolved = 0 ↔ ∀ g ∈ r.findings, g.2.isResolved := by
  simp [unresolved, List.countP_eq_zero]

/-- The finding on a reference is none, and stands for the error. -/
inductive Finding.Reports (r : Reference) : Finding → ResolutionError → Prop
  | mismatch (id : String) (actual : ArtifactKind) :
      Reports r (.mismatch id actual) (.kindMismatch r.target.value r.kind actual)
  | missing :
      Reports r (.missing (.notFound r.target.value r.target.version))
        (.notFound r.target.value r.target.version)

theorem Finding.Reports.not_isResolved {r : Reference} {f : Finding} {e : ResolutionError}
    (h : f.Reports r e) : ¬f.isResolved := by
  cases h <;> exact Bool.false_ne_true

/-- What the store answers, under whichever name it is asked. -/
abbrev answers (store : Store) : Answers Shelf Empty :=
  fun _ => store.resolve

/-- The finding on a reference says whether it means something, and what it does not. -/
theorem find_cases {r : Reference} {pattern : Option VersionPattern} (store : Store)
    (source : Source Shelf) (h : r.target.pattern = .ok pattern) :
    (∃ a, (answers store).meaning (some source) r = .ok a ∧
      find store r pattern = .resolved a.id a.version) ∨
    ∃ e, (answers store).meaning (some source) r = .error e ∧ (find store r pattern).Reports r e := by
  simp only [Answers.meaning, h, find, answers]
  obtain ⟨a, hanswer⟩ | hanswer := store.resolve_cases r.target.value pattern
  · rw [hanswer]
    by_cases hkind : a.kind = r.kind
    · simp only [if_pos hkind]
      exact .inl ⟨a, rfl, rfl⟩
    · simp only [if_neg hkind]
      exact .inr ⟨_, rfl, .mismatch a.id a.kind⟩
  · rw [hanswer, IdReference.source_of_pattern h]
    exact .inr ⟨_, rfl, .missing⟩

/-- The finding is what the store has for the reference, whose pattern is one. -/
def Finds (store : Store) (r : Reference) (found : Reference × Finding) : Prop :=
  ∃ pattern, r.target.pattern = .ok pattern ∧ found = (r, find store r pattern)

theorem forall₂_of_examine {store : Store} {rs : List Reference}
    {findings : List (Reference × Finding)} (h : examine store rs = .ok findings) :
    List.Forall₂ (Finds store) rs findings := by
  induction rs generalizing findings with
  | nil =>
    cases h
    exact .nil
  | cons r rest ih =>
    unfold examine at h
    cases hpattern : r.target.pattern with
    | error e => rw [hpattern] at h; cases h
    | ok pattern =>
      rw [hpattern] at h
      obtain ⟨others, hrest, rfl⟩ := map_eq_ok_iff.1 h
      exact .cons ⟨pattern, hpattern, rfl⟩ (ih hrest)

/-- A report has one line for each reference, in order. -/
theorem forall₂_lines {store : Store} {rs : List Reference} {findings : List (Reference × Finding)}
    (h : List.Forall₂ (Finds store) rs findings) :
    List.Forall₂ (fun r line => ∃ pattern, r.target.pattern = .ok pattern ∧
      line = reportLine r (find store r pattern)) rs (Report.mk findings).lines := by
  refine List.forall₂_map_right_iff.2 (h.imp fun r g hfinds => ?_)
  obtain ⟨pattern, hpattern, rfl⟩ := hfinds
  exact ⟨pattern, hpattern, rfl⟩

/-- Examining fails only by a pattern that is none. -/
theorem pattern_of_examine {store : Store} {rs : List Reference} {e : CommandError}
    (h : examine store rs = .error e) :
    ∃ r ∈ rs, ∃ fault, r.target.pattern = .error fault ∧ e = .readingVersion (label r) fault := by
  induction rs with
  | nil => cases h
  | cons r rest ih =>
    unfold examine at h
    cases hpattern : r.target.pattern with
    | error fault =>
      rw [hpattern] at h
      cases h
      exact ⟨r, List.mem_cons_self, fault, hpattern, rfl⟩
    | ok pattern =>
      rw [hpattern] at h
      obtain ⟨q, hq, hfault⟩ := ih (map_eq_error_iff.1 h)
      exact ⟨q, List.mem_cons_of_mem r hq, hfault⟩

/-- Either all references are found and mean something, or the first one that is not found is the
first one that means nothing, and is reported as that. -/
theorem meanings_cases {store : Store} {rs : List Reference}
    {findings : List (Reference × Finding)} (h : List.Forall₂ (Finds store) rs findings)
    (source : Source Shelf) :
    ((answers store).meanings (some source) rs = .ok () ∧ ∀ g ∈ findings, g.2.isResolved) ∨
    ∃ before r f after e, findings = before ++ (r, f) :: after ∧
      (∀ g ∈ before, g.2.isResolved) ∧ f.Reports r e ∧
      (answers store).meanings (some source) rs = .error e := by
  induction h with
  | nil => exact .inl ⟨rfl, List.forall_mem_nil _⟩
  | @cons r g rest findings hfirst _ ih =>
    obtain ⟨pattern, hpattern, rfl⟩ := hfirst
    simp only [Answers.meanings]
    obtain ⟨a, hmeaning, hfound⟩ | ⟨e, hmeaning, hreports⟩ := find_cases store source hpattern
    · have hresolved : (find store r pattern).isResolved := by rw [hfound]; rfl
      rw [hmeaning]
      obtain ⟨hall, hfindings⟩ | ⟨before, q, f, after, e, rfl, hbefore, hreports, hfails⟩ := ih
      · exact .inl ⟨hall, List.forall_mem_cons.2 ⟨hresolved, hfindings⟩⟩
      · exact .inr ⟨(r, find store r pattern) :: before, q, f, after, e, rfl,
          List.forall_mem_cons.2 ⟨hresolved, hbefore⟩, hreports, hfails⟩
    · rw [hmeaning]
      exact .inr ⟨[], r, find store r pattern, findings, e, rfl, List.forall_mem_nil _, hreports, rfl⟩

/-- Examining references beside resolving them in advance: both find everything, or both stop being
content with the same reference, or a pattern is none, where both fail. -/
theorem examine_cases (store : Store) (source : Source Shelf) (rs : List Reference) :
    (∃ findings, examine store rs = .ok findings ∧ List.Forall₂ (Finds store) rs findings ∧
      (Report.mk findings).unresolved = 0 ∧
      (answers store).meanings (some source) rs = .ok ()) ∨
    (∃ findings, examine store rs = .ok findings ∧ List.Forall₂ (Finds store) rs findings ∧
      (Report.mk findings).unresolved ≠ 0 ∧
      ∃ before r f after e, findings = before ++ (r, f) :: after ∧
        (∀ g ∈ before, g.2.isResolved) ∧ f.Reports r e ∧
        (answers store).meanings (some source) rs = .error e) ∨
    ∃ e, examine store rs = .error e ∧
      (∃ r ∈ rs, ∃ fault, r.target.pattern = .error fault ∧ e = .readingVersion (label r) fault) ∧
      ∃ f, (answers store).meanings (some source) rs = .error f := by
  cases hexamine : examine store rs with
  | ok findings =>
    have hfinds := forall₂_of_examine hexamine
    obtain ⟨hall, hresolved⟩ | ⟨before, r, f, after, e, hsplit, hbefore, hreports, hfails⟩ :=
      meanings_cases hfinds source
    · exact .inl ⟨findings, rfl, hfinds, Report.unresolved_eq_zero_iff.2 hresolved, hall⟩
    · have hmem : (r, f) ∈ findings := hsplit ▸ List.mem_append_right before List.mem_cons_self
      have hne : (Report.mk findings).unresolved ≠ 0 := fun hzero =>
        hreports.not_isResolved (Report.unresolved_eq_zero_iff.1 hzero _ hmem)
      exact .inr (.inl ⟨findings, rfl, hfinds, hne, before, r, f, after, e, hsplit, hbefore, hreports,
        hfails⟩)
  | error e =>
    obtain ⟨r, hr, fault, hpattern, hfault⟩ := pattern_of_examine hexamine
    refine .inr (.inr ⟨e, rfl, ⟨r, hr, fault, hpattern, hfault⟩, ?_⟩)
    cases hmeanings : (answers store).meanings (some source) rs with
    | error f => exact ⟨f, rfl⟩
    | ok u =>
      obtain ⟨a, hmeaning⟩ := Answers.meanings_eq_ok_iff.1 hmeanings r hr
      obtain ⟨pattern, hp, -⟩ := Answers.meaning_eq_ok_iff.1 hmeaning
      cases hpattern.symm.trans hp

end CommandLine

end AccessPolicy
