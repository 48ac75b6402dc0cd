import AccessPolicy.Proofs.Evaluation.Simulation
import AccessPolicy.Proofs.Evaluation.Unwinding

namespace AccessPolicy

namespace World

variable {R X σ : Type} [DecidableEq R]

/-- What an artifact has been given for a reference. -/
def given? (w : World R X σ) (a : Artifact R X) (k : ReferenceKey) : Option (Artifact R X) :=
  match a with
  | .standard _ (some s) => w.remembered? s k
  | .standard _ none => none
  | .external _ _ => none

omit [DecidableEq R] in
/-- Whatever is remembered is remembered for a source that has been opened. -/
def Numbered (w : World R X σ) : Prop :=
  ∀ entry ∈ w.remembered, entry.1.1.cache < w.nextCache

omit [DecidableEq R] in
theorem numbered_new (outside : σ) : (new (R := R) (X := X) outside).Numbered := by
  intro entry h
  cases h

omit [DecidableEq R] in
theorem Numbered.openSource {w : World R X σ} (hw : w.Numbered) (resolver : R) :
    (w.openSource resolver).2.Numbered :=
  fun entry h => Nat.lt_succ_of_lt (hw entry h)

/-- The same is remembered for one source in the one world and for another in the other. -/
structure AlikeFor (s t : Source R) (w v : World R X σ) : Prop where
  remembered : ∀ k, w.remembered? s k = v.remembered? t k
  count : w.countRemembered s = v.countRemembered t

theorem AlikeFor.remember {s t : Source R} {w v : World R X σ} (h : AlikeFor s t w v)
    (k : ReferenceKey) (a : Artifact R X) :
    AlikeFor s t (w.remember s k a) (v.remember t k a) := by
  refine ⟨fun l => ?_, ?_⟩
  · by_cases hkey : l = k
    · rw [hkey, remembered?_remember_self, remembered?_remember_self]
    · have hs : (s, l) ≠ (s, k) := fun heq => hkey (Prod.mk.inj heq).2
      have ht : (t, l) ≠ (t, k) := fun heq => hkey (Prod.mk.inj heq).2
      rw [remembered?_remember_of_ne hs, remembered?_remember_of_ne ht, h.remembered]
  · have hcount := h.count
    simpa [countRemembered, World.remember] using hcount

theorem remembered?_openSource {w : World R X σ} (hw : w.Numbered) (resolver : R)
    (k : ReferenceKey) : (w.openSource resolver).2.remembered? (w.openSource resolver).1 k = none := by
  refine List.lookup_eq_none_iff.2 fun entry hentry => bne_iff_ne.2 fun heq => ?_
  have hcache := hw entry hentry
  rw [← heq] at hcache
  exact Nat.lt_irrefl _ hcache

theorem countRemembered_openSource {w : World R X σ} (hw : w.Numbered) (resolver : R) :
    (w.openSource resolver).2.countRemembered (w.openSource resolver).1 = 0 := by
  refine List.countP_eq_zero.2 fun entry hentry => ?_
  have hcache := hw entry hentry
  intro heq
  rw [of_decide_eq_true heq] at hcache
  exact Nat.lt_irrefl _ hcache

/-- Nothing is remembered for a source that has just been opened. -/
theorem alikeFor_openSource {w v : World R X σ} (hw : w.Numbered) (hv : v.Numbered) (resolver : R) :
    AlikeFor (w.openSource resolver).1 (v.openSource resolver).1 (w.openSource resolver).2
      (v.openSource resolver).2 := by
  refine ⟨fun k => ?_, ?_⟩
  · rw [remembered?_openSource hw, remembered?_openSource hv]
  · rw [countRemembered_openSource hw, countRemembered_openSource hv]

end World

/-- The resolver gives these answers, each time it is asked, and changes nothing. -/
def Surroundings.PureAt {R X σ : Type} (sur : Surroundings R X σ) (resolver : R)
    (answer : String → Option VersionPattern → Except ResolutionError (Artifact R X)) : Prop :=
  ∀ id pattern s, sur.lookUp resolver id pattern s = outcomeIn (answer id pattern) s

variable {R X σ : Type} [DecidableEq R] {sur : Surroundings R X σ}
  {answer : String → Option VersionPattern → Except ResolutionError (Artifact R X)} {s t : Source R}

/-- For two sources of one resolver a reference resolves alike. -/
theorem resolve_endsAlike (hpure : sur.PureAt t.resolver answer)
    (hresolver : s.resolver = t.resolver) (r : Reference) :
    EndsAlike (World.AlikeFor s t) (resolve sur (some s) r) (resolve sur (some t) r) := by
  intro w v h
  simp only [resolve, h.remembered]
  cases v.remembered? t r.key with
  | some a => exact .ok h
  | none =>
    cases r.target.pattern with
    | error e => exact .error h
    | ok pattern =>
      simp only [World.ask, hresolver, hpure _ _ _]
      cases answer r.target.value pattern with
      | error e => exact .error ⟨h.remembered, h.count⟩
      | ok a =>
        simp only [outcomeIn]
        split
        · exact .ok (World.AlikeFor.remember ⟨h.remembered, h.count⟩ r.key a)
        · exact .error ⟨h.remembered, h.count⟩

theorem resolveAll_endsAlike (hpure : sur.PureAt t.resolver answer)
    (hresolver : s.resolver = t.resolver) (rs : List Reference) :
    EndsAlike (World.AlikeFor s t) (resolveAll sur (some s) rs) (resolveAll sur (some t) rs) := by
  induction rs with
  | nil => exact EndsAlike.pure ()
  | cons r rest ih => exact (resolve_endsAlike hpure hresolver r).bind fun _ => ih

/-- Resolving for a source that has been opened opens no other, and remembers for it alone. -/
theorem World.Numbered.resolve (sur : Surroundings R X σ) {w : World R X σ} (hw : w.Numbered)
    (hs : s.cache < w.nextCache) (r : Reference) :
    (endState (resolve sur (some s) r w)).Numbered ∧
      (endState (AccessPolicy.resolve sur (some s) r w)).nextCache = w.nextCache := by
  simp only [AccessPolicy.resolve]
  cases w.remembered? s r.key with
  | some a => exact ⟨hw, rfl⟩
  | none =>
    cases r.target.pattern with
    | error e => exact ⟨hw, rfl⟩
    | ok pattern =>
      simp only [World.ask]
      cases sur.lookUp s.resolver r.target.value pattern w.outside with
      | error e outside => exact ⟨hw, rfl⟩
      | ok a outside =>
        dsimp only
        split
        · exact ⟨fun entry h => (List.mem_cons.1 h).elim (fun heq => heq ▸ hs) (hw entry), rfl⟩
        · exact ⟨hw, rfl⟩

theorem World.Numbered.resolveAll (sur : Surroundings R X σ) {w : World R X σ} (hw : w.Numbered)
    (hs : s.cache < w.nextCache) (rs : List Reference) :
    (endState (resolveAll sur (some s) rs w)).Numbered := by
  induction rs generalizing w with
  | nil => exact hw
  | cons r rest ih =>
    obtain ⟨hnumbered, hnext⟩ := hw.resolve sur hs r
    simp only [AccessPolicy.resolveAll, Bind.bind, EStateM.bind]
    cases hrun : AccessPolicy.resolve sur (some s) r w with
    | error e v => rw [hrun] at hnumbered; exact hnumbered
    | ok a v =>
      rw [hrun] at hnumbered hnext
      exact ih hnumbered (Nat.lt_of_lt_of_eq hs hnext.symm)

end AccessPolicy
