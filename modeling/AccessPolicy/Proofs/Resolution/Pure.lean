import AccessPolicy.Resolution

namespace AccessPolicy

/-- The computation that ends with the given outcome in the given state. -/
def outcomeIn (x : Except ε α) (s : τ) : EStateM.Result ε τ α :=
  match x with
  | .ok a => .ok a s
  | .error e => .error e s

/-- What each resolver answers to an identifier and a pattern. -/
abbrev Answers (R X : Type) :=
  R → String → Option VersionPattern → Except ResolutionError (Artifact R X)

variable {R X σ : Type}

/-- Resolvers give these answers, each time they are asked, and change nothing. -/
def Surroundings.Give (sur : Surroundings R X σ) (answers : Answers R X) : Prop :=
  ∀ resolver id pattern s,
    sur.lookUp resolver id pattern s = outcomeIn (answers resolver id pattern) s

/-- In this state the resolver gives these answers, and changes nothing. -/
def Surroundings.AnswersIn (sur : Surroundings R X σ) (outside : σ) (resolver : R)
    (answer : String → Option VersionPattern → Except ResolutionError (Artifact R X)) : Prop :=
  ∀ id pattern, sur.lookUp resolver id pattern outside = outcomeIn (answer id pattern) outside

namespace Answers

/-- What a reference that stands in a document with the source means. -/
def meaning (answers : Answers R X) :
    Option (Source R) → Reference → Except ResolutionError (Artifact R X)
  | none, r => .error (.noResolver r.target.value)
  | some s, r =>
    match r.target.pattern with
    | .error e => .error (.invalidVersion e)
    | .ok pattern =>
      match answers s.resolver r.target.value pattern with
      | .error e => .error e
      | .ok a =>
        if a.kind = r.kind then .ok a
        else .error (.kindMismatch r.target.value r.kind a.kind)

/-- The limits of versions other than the pattern do not matter to what a reference means. -/
theorem meaning_congr {answers : Answers R X} {q r : Reference} (h : q.key = r.key)
    (source : Option (Source R)) : answers.meaning source q = answers.meaning source r := by
  obtain ⟨kind, value, version, earliest, latest⟩ := q
  obtain ⟨kind', value', version', earliest', latest'⟩ := r
  simp only [Reference.key, ReferenceKey.mk.injEq] at h
  obtain ⟨rfl, rfl, rfl⟩ := h
  cases source <;> rfl

/-- What a reference means is what the resolver answers to its pattern, if that is of its kind. -/
theorem meaning_eq_ok_iff {answers : Answers R X} {s : Source R} {r : Reference}
    {a : Artifact R X} :
    answers.meaning (some s) r = .ok a ↔
      ∃ pattern, r.target.pattern = .ok pattern ∧
        answers s.resolver r.target.value pattern = .ok a ∧ a.kind = r.kind := by
  constructor
  · intro h
    simp only [meaning] at h
    split at h
    · cases h
    · next pattern hpattern =>
      split at h
      · cases h
      · next b hanswer =>
        split at h
        · next hkind =>
          cases h
          exact ⟨pattern, hpattern, hanswer, hkind⟩
        · cases h
  · rintro ⟨pattern, hpattern, hanswer, hkind⟩
    simp only [meaning, hpattern, hanswer, if_pos hkind]

theorem kind_of_meaning {answers : Answers R X} {source : Option (Source R)} {r : Reference}
    {a : Artifact R X} (h : answers.meaning source r = .ok a) : a.kind = r.kind := by
  obtain _ | s := source
  · cases h
  · obtain ⟨-, -, -, hkind⟩ := meaning_eq_ok_iff.1 h
    exact hkind

/-- What comes of going through references in order, up to the first that means nothing. -/
def meanings (answers : Answers R X) (source : Option (Source R)) :
    List Reference → Except ResolutionError Unit
  | [] => .ok ()
  | r :: rest => (answers.meaning source r).bind fun _ => answers.meanings source rest

theorem meanings_eq_ok_iff {answers : Answers R X} {source : Option (Source R)}
    {rs : List Reference} :
    answers.meanings source rs = .ok () ↔ ∀ r ∈ rs, ∃ a, answers.meaning source r = .ok a := by
  induction rs with
  | nil => simp [meanings]
  | cons r rest ih => cases h : answers.meaning source r <;> simp [meanings, Except.bind, h, ih]

end Answers

namespace World

variable [DecidableEq R]

/-- Everything that is remembered is what the reference means. -/
def Faithful (answers : Answers R X) (w : World R X σ) : Prop :=
  ∀ s r a, w.remembered? s r.key = some a → answers.meaning (some s) r = .ok a

/-- Everything that is remembered for the source is what the reference means. -/
def FaithfulFor (answers : Answers R X) (s : Source R) (w : World R X σ) : Prop :=
  ∀ r a, w.remembered? s r.key = some a → answers.meaning (some s) r = .ok a

theorem faithful_new (answers : Answers R X) (outside : σ) :
    (new (R := R) (X := X) outside).Faithful answers := by
  intro s r a h
  cases h

theorem FaithfulFor.remember {answers : Answers R X} {w : World R X σ} {s t : Source R}
    {r : Reference} {a : Artifact R X} (hw : w.FaithfulFor answers t)
    (h : answers.meaning (some s) r = .ok a) : (w.remember s r.key a).FaithfulFor answers t := by
  intro q b hremembered
  by_cases hsame : (t, q.key) = (s, r.key)
  · obtain ⟨rfl, hkey⟩ := Prod.mk.inj hsame
    rw [hkey, remembered?_remember_self] at hremembered
    cases hremembered
    rw [Answers.meaning_congr hkey, h]
  · rw [remembered?_remember_of_ne hsame] at hremembered
    exact hw q b hremembered

theorem Faithful.remember {answers : Answers R X} {w : World R X σ} {s : Source R}
    {r : Reference} {a : Artifact R X} (hw : w.Faithful answers)
    (h : answers.meaning (some s) r = .ok a) : (w.remember s r.key a).Faithful answers :=
  fun t => FaithfulFor.remember (hw t) h

end World

variable [DecidableEq R]

/-- For a source whose resolver answers in this state, a reference resolves to what it means, and at
most that is remembered in addition. -/
theorem resolve_eq_meaning_of_answersIn {sur : Surroundings R X σ} {answers : Answers R X}
    {w : World R X σ} {s : Source R}
    (hanswers : sur.AnswersIn w.outside s.resolver (answers s.resolver))
    (hw : w.FaithfulFor answers s) (r : Reference) :
    ∃ w', (w' = w ∨ ∃ a, answers.meaning (some s) r = .ok a ∧ w' = w.remember s r.key a) ∧
      resolve sur (some s) r w = outcomeIn (answers.meaning (some s) r) w' := by
  cases hremembered : w.remembered? s r.key with
  | some a =>
    refine ⟨w, .inl rfl, ?_⟩
    simp only [resolve, hremembered, hw r a hremembered, outcomeIn]
  | none =>
    simp only [resolve, hremembered, World.ask, hanswers _ _]
    cases hpattern : r.target.pattern with
    | error e => exact ⟨w, .inl rfl, by simp only [Answers.meaning, hpattern, outcomeIn]⟩
    | ok pattern =>
      cases hanswer : answers s.resolver r.target.value pattern with
      | error e =>
        exact ⟨w, .inl rfl, by simp only [Answers.meaning, hpattern, hanswer, outcomeIn]⟩
      | ok a =>
        by_cases hkind : a.kind = r.kind
        · have hmeaning := Answers.meaning_eq_ok_iff.2 ⟨pattern, hpattern, hanswer, hkind⟩
          refine ⟨w.remember s r.key a, .inr ⟨a, hmeaning, rfl⟩, ?_⟩
          simp only [hmeaning, hanswer, outcomeIn, if_pos hkind]
        · refine ⟨w, .inl rfl, ?_⟩
          simp only [Answers.meaning, hpattern, hanswer, outcomeIn, if_neg hkind]

/-- A reference resolves to what it means, and the state outside is not touched. -/
theorem resolve_eq_meaning {sur : Surroundings R X σ} {answers : Answers R X} {w : World R X σ}
    (hgive : sur.Give answers) (hw : w.Faithful answers) (source : Option (Source R))
    (r : Reference) :
    ∃ w', w'.Faithful answers ∧ w'.outside = w.outside ∧
      resolve sur source r w = outcomeIn (answers.meaning source r) w' := by
  obtain _ | s := source
  · exact ⟨w, hw, rfl, rfl⟩
  · obtain ⟨w', rfl | ⟨a, hmeaning, rfl⟩, hresolve⟩ :=
      resolve_eq_meaning_of_answersIn (fun _ _ => hgive _ _ _ _) (hw s) r
    · exact ⟨w', hw, rfl, hresolve⟩
    · exact ⟨_, hw.remember hmeaning, rfl, hresolve⟩

/-- References that are resolved in advance fail as the first of them that means nothing. -/
theorem resolveAll_eq_meanings {sur : Surroundings R X σ} {answers : Answers R X}
    {w : World R X σ} {s : Source R}
    (hanswers : sur.AnswersIn w.outside s.resolver (answers s.resolver))
    (hw : w.FaithfulFor answers s) (rs : List Reference) :
    ∃ w', resolveAll sur (some s) rs w = outcomeIn (answers.meanings (some s) rs) w' := by
  induction rs generalizing w with
  | nil => exact ⟨w, rfl⟩
  | cons r rest ih =>
    obtain ⟨w', hworld, hresolve⟩ := resolve_eq_meaning_of_answersIn hanswers hw r
    simp only [resolveAll, Bind.bind, EStateM.bind, hresolve, Answers.meanings]
    cases hmeaning : answers.meaning (some s) r with
    | error e => exact ⟨w', rfl⟩
    | ok a =>
      obtain rfl | ⟨b, hb, rfl⟩ := hworld
      · exact ih hanswers hw
      · exact ih hanswers (hw.remember hb)

/-- References are all resolved in advance exactly if each of them means something, whatever is
remembered before. -/
theorem resolveAll_eq_ok_iff {sur : Surroundings R X σ} {answers : Answers R X} {w : World R X σ}
    (hgive : sur.Give answers) (hw : w.Faithful answers) (source : Option (Source R))
    (rs : List Reference) :
    (∃ w', resolveAll sur source rs w = .ok () w') ↔
      ∀ r ∈ rs, ∃ a, answers.meaning source r = .ok a := by
  induction rs generalizing w with
  | nil => simp [resolveAll, pure, EStateM.pure]
  | cons r rest ih =>
    obtain ⟨w', hfaithful, -, hresolve⟩ := resolve_eq_meaning hgive hw source r
    simp only [resolveAll, Bind.bind, EStateM.bind, hresolve, List.forall_mem_cons]
    cases answers.meaning source r with
    | error e => simp [outcomeIn]
    | ok a => simpa [outcomeIn] using ih hfaithful

end AccessPolicy
