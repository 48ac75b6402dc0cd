import AccessPolicy.Proofs.Evaluation.Unwinding
import AccessPolicy.Proofs.Journal
import AccessPolicy.Proofs.Resolution.Pure

namespace AccessPolicy

variable {R X σ : Type}

/-- The artifact that a reference means, which the resolver is asked for in any case. -/
def fetch (sur : Surroundings R X σ) (resolver : Option R) (r : Reference) :
    EStateM ResolutionError σ (Artifact R X) :=
  match resolver with
  | none => throw (.noResolver r.target.value)
  | some name =>
    match r.target.pattern with
    | .error e => throw (.invalidVersion e)
    | .ok pattern => do
      let a ← sur.lookUp name r.target.value pattern
      if a.kind = r.kind then return a
      else throw (.kindMismatch r.target.value r.kind a.kind)

/-- What the resolver answers is what the reference means. -/
theorem fetch_eq_meaning {sur : Surroundings R X σ} {answers : Answers R X}
    (hgive : sur.Give answers) (source : Option (Source R)) (r : Reference) (outside : σ) :
    fetch sur (source.map Source.resolver) r outside =
      outcomeIn (answers.meaning source r) outside := by
  obtain _ | s := source
  · rfl
  · simp only [fetch, Option.map_some, Answers.meaning]
    cases r.target.pattern with
    | error e => rfl
    | ok pattern =>
      have hanswer := hgive s.resolver r.target.value pattern outside
      simp only [Bind.bind, EStateM.bind, hanswer]
      cases answers s.resolver r.target.value pattern with
      | error e => rfl
      | ok a =>
        by_cases hkind : a.kind = r.kind
        · simp only [outcomeIn, if_pos hkind]
          rfl
        · simp only [outcomeIn, if_neg hkind]
          rfl

/-- Only an artifact of the kind that the reference states is ever fetched, and from a resolver. -/
theorem kind_of_fetch {sur : Surroundings R X σ} {resolver : Option R} {r : Reference} {s t : σ}
    {a : Artifact R X} (h : fetch sur resolver r s = .ok a t) :
    resolver.isSome ∧ a.kind = r.kind := by
  obtain _ | name := resolver
  · cases h
  · simp only [fetch] at h
    cases hpattern : r.target.pattern with
    | error e => rw [hpattern] at h; cases h
    | ok pattern =>
      rw [hpattern] at h
      simp only [Bind.bind, EStateM.bind] at h
      cases hanswer : sur.lookUp name r.target.value pattern s with
      | error e o => rw [hanswer] at h; cases h
      | ok b o =>
        rw [hanswer] at h
        by_cases hkind : b.kind = r.kind
        · simp only [if_pos hkind] at h
          cases h
          exact ⟨rfl, hkind⟩
        · simp only [if_neg hkind] at h
          cases h

variable [DecidableEq R]

/-- What is remembered for a reference in a document with the source. -/
def World.known? (w : World R X σ) (source : Option (Source R)) (k : ReferenceKey) :
    Option (Artifact R X) :=
  source.bind fun s => w.remembered? s k

theorem World.known?_congr {v w : World R X σ} (h : v.remembered = w.remembered)
    (source : Option (Source R)) (k : ReferenceKey) : v.known? source k = w.known? source k := by
  simp only [known?, remembered?, h]

theorem World.known?_some (w : World R X σ) (s : Source R) (k : ReferenceKey) :
    w.known? (some s) k = w.remembered? s k :=
  rfl

section

variable {sur : Surroundings R X σ} {source : Option (Source R)} {r : Reference} {w : World R X σ}

theorem resolve_of_known {a : Artifact R X} (h : w.known? source r.key = some a) :
    resolve sur source r w = .ok a w := by
  obtain _ | s := source
  · cases h
  · rw [World.known?_some] at h
    simp only [resolve, h]

/-- What is not known is fetched; failures are not remembered. -/
theorem resolve_of_unknown (sur : Surroundings R X σ) (h : w.known? source r.key = none) :
    (∃ e o, fetch sur (source.map Source.resolver) r w.outside = .error e o ∧
      resolve sur source r w = .error e { w with outside := o }) ∨
    (∃ s a o, source = some s ∧ fetch sur (source.map Source.resolver) r w.outside = .ok a o ∧
      resolve sur source r w = .ok a ({ w with outside := o }.remember s r.key a)) := by
  obtain _ | s := source
  · exact .inl ⟨_, _, rfl, rfl⟩
  rw [World.known?_some] at h
  simp only [resolve, h, fetch, Option.map_some]
  cases hpattern : r.target.pattern with
  | error e => exact .inl ⟨_, _, rfl, rfl⟩
  | ok pattern =>
    simp only [World.ask, Bind.bind, EStateM.bind]
    cases sur.lookUp s.resolver r.target.value pattern w.outside with
    | error e o => exact .inl ⟨_, _, rfl, rfl⟩
    | ok a o =>
      by_cases hkind : a.kind = r.kind
      · simp only [if_pos hkind]
        exact .inr ⟨_, _, _, rfl, rfl, rfl⟩
      · simp only [if_neg hkind]
        exact .inl ⟨_, _, rfl, rfl⟩

/-- A reference is answered from memory, or fetching it fails, or it is fetched and remembered. -/
theorem resolve_cases (sur : Surroundings R X σ) (source : Option (Source R)) (r : Reference)
    (w : World R X σ) :
    (∃ a, w.known? source r.key = some a ∧ resolve sur source r w = .ok a w) ∨
    (∃ e o, w.known? source r.key = none ∧
      fetch sur (source.map Source.resolver) r w.outside = .error e o ∧
      resolve sur source r w = .error e { w with outside := o }) ∨
    (∃ s a o, source = some s ∧ w.remembered? s r.key = none ∧ a.kind = r.kind ∧
      fetch sur (source.map Source.resolver) r w.outside = .ok a o ∧
      resolve sur source r w = .ok a ({ w with outside := o }.remember s r.key a)) := by
  cases hknown : w.known? source r.key with
  | some a => exact .inl ⟨a, rfl, resolve_of_known hknown⟩
  | none =>
    obtain ⟨e, o, hfetch, hresolve⟩ | ⟨s, a, o, rfl, hfetch, hresolve⟩ :=
      resolve_of_unknown sur hknown
    · exact .inr (.inl ⟨e, o, rfl, hfetch, hresolve⟩)
    · obtain ⟨-, hkind⟩ := kind_of_fetch hfetch
      exact .inr (.inr ⟨s, a, o, rfl, hknown, hkind, hfetch, hresolve⟩)

/-- Whether it is known or not, the outcome is that of the memory or of fetching. -/
theorem answerOf_resolve (sur : Surroundings R X σ) (source : Option (Source R)) (r : Reference)
    (w : World R X σ) :
    answerOf (resolve sur source r w) =
      match w.known? source r.key with
      | some a => .ok a
      | none => answerOf (fetch sur (source.map Source.resolver) r w.outside) := by
  obtain ⟨a, hknown, hresolve⟩ | ⟨e, o, hknown, hfetch, hresolve⟩ |
    ⟨s, a, o, rfl, hknown, -, hfetch, hresolve⟩ := resolve_cases sur source r w
  · rw [hknown, hresolve]
    rfl
  · rw [hknown, hresolve, hfetch]
    rfl
  · rw [World.known?_some, hknown, hresolve, hfetch]
    rfl

end

namespace World

variable {sur : Surroundings R X σ} {source t : Option (Source R)} {r : Reference}
  {k : ReferenceKey} {w : World R X σ} {b : Artifact R X}

theorem known?_remember_self (w : World R X σ) (s : Source R) (k : ReferenceKey)
    (a : Artifact R X) : (w.remember s k a).known? (some s) k = some a :=
  remembered?_remember_self w s k a

theorem known?_remember_of_ne {s : Source R} {l : ReferenceKey} {a : Artifact R X}
    (h : (t, l) ≠ (some s, k)) : (w.remember s k a).known? t l = w.known? t l := by
  obtain _ | t := t
  · rfl
  · refine remembered?_remember_of_ne fun heq => h ?_
    obtain ⟨rfl, rfl⟩ := Prod.mk.inj heq
    rfl

/-- What is known stays known, and as the same artifact. -/
theorem known?_resolve_of_known (sur : Surroundings R X σ) (source : Option (Source R))
    (r : Reference) (h : w.known? t k = some b) :
    (endState (resolve sur source r w)).known? t k = some b := by
  obtain ⟨a, -, hresolve⟩ | ⟨e, o, -, -, hresolve⟩ | ⟨s, a, o, rfl, hnew, -, -, hresolve⟩ :=
    resolve_cases sur source r w
  · rw [hresolve]
    exact h
  · rw [hresolve]
    exact h
  · rw [hresolve]
    have hother : (t, k) ≠ (some s, r.key) := by
      intro heq
      obtain ⟨rfl, rfl⟩ := Prod.mk.inj heq
      cases hnew.symm.trans h
    exact (known?_remember_of_ne hother).trans h

/-- Only the reference that is resolved can become known. -/
theorem known?_resolve_of_ne (sur : Surroundings R X σ) (h : (t, k) ≠ (source, r.key)) :
    (endState (resolve sur source r w)).known? t k = w.known? t k := by
  obtain ⟨a, -, hresolve⟩ | ⟨e, o, -, -, hresolve⟩ | ⟨s, a, o, rfl, -, -, -, hresolve⟩ :=
    resolve_cases sur source r w <;> rw [hresolve]
  · rfl
  · rfl
  · exact known?_remember_of_ne h

/-- Afterwards the reference is known as what it was resolved to, if it was. -/
theorem known?_resolve_self (sur : Surroundings R X σ) (source : Option (Source R))
    (r : Reference) (w : World R X σ) :
    (endState (resolve sur source r w)).known? source r.key =
      (answerOf (resolve sur source r w)).toOption := by
  obtain ⟨a, hknown, hresolve⟩ | ⟨e, o, hknown, -, hresolve⟩ | ⟨s, a, o, rfl, -, -, -, hresolve⟩ :=
    resolve_cases sur source r w <;> rw [hresolve]
  · exact hknown
  · exact hknown
  · exact known?_remember_self _ s r.key a

theorem remembered_resolve_of_error {e : ResolutionError}
    (h : answerOf (resolve sur source r w) = .error e) :
    (endState (resolve sur source r w)).remembered = w.remembered := by
  obtain ⟨a, -, hresolve⟩ | ⟨e, o, -, -, hresolve⟩ | ⟨s, a, o, -, -, -, -, hresolve⟩ :=
    resolve_cases sur source r w
  · rw [hresolve]
    rfl
  · rw [hresolve]
    rfl
  · rw [hresolve] at h
    cases h

/-- There is one entry for each reference of a source, of the kind that the reference states. -/
structure Sound (w : World R X σ) : Prop where
  kind : ∀ entry ∈ w.remembered, entry.2.kind = entry.1.2.kind
  nodup : (w.remembered.map Prod.fst).Nodup

omit [DecidableEq R] in
theorem sound_new (outside : σ) : (new (R := R) (X := X) outside).Sound :=
  ⟨List.forall_mem_nil _, List.nodup_nil⟩

theorem Sound.remember {s : Source R} {a : Artifact R X} (hw : w.Sound)
    (hnew : w.remembered? s k = none) (hkind : a.kind = k.kind) : (w.remember s k a).Sound := by
  refine ⟨List.forall_mem_cons.2 ⟨hkind, hw.kind⟩, List.nodup_cons.2 ⟨fun hmem => ?_, hw.nodup⟩⟩
  obtain ⟨entry, hentry, hkey⟩ := List.mem_map.1 hmem
  have hne : (s, k) ≠ entry.1 := bne_iff_ne.1 (List.lookup_eq_none_iff.1 hnew entry hentry)
  exact hne hkey.symm

theorem Sound.resolve (hw : w.Sound) (sur : Surroundings R X σ) (source : Option (Source R))
    (r : Reference) : (endState (resolve sur source r w)).Sound := by
  obtain ⟨a, -, hresolve⟩ | ⟨e, o, -, -, hresolve⟩ | ⟨s, a, o, -, hnew, hkind, -, hresolve⟩ :=
    resolve_cases sur source r w <;> rw [hresolve]
  · exact hw
  · exact ⟨hw.kind, hw.nodup⟩
  · have hchanged : World.Sound { w with outside := o } := ⟨hw.kind, hw.nodup⟩
    exact hchanged.remember hnew hkind

end World

end AccessPolicy
