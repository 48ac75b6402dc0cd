import AccessPolicy.Proofs.Evaluation.FetchedOnce

namespace AccessPolicy

open Evaluation Moment

variable {R X σ : Type}

namespace Artifact

/-- What the references of an artifact are resolved for. -/
def source? : Artifact R X → Option (Source R)
  | .standard _ source => source
  | .external _ _ => none

/-- The artifact is one of these, unless it has no source. -/
def Among (a : Artifact R X) (as : List (Artifact R X)) : Prop :=
  a ∈ as ∨ a.source? = none

variable {a : Artifact R X} {as bs : List (Artifact R X)}

theorem Among.mono (h : a.Among as) (hsub : as ⊆ bs) : a.Among bs :=
  h.imp_left (hsub ·)

theorem Among.mem (h : a.Among as) (hsource : a.source?.isSome) : a ∈ as :=
  h.resolve_right fun hnone => by rw [hnone] at hsource; cases hsource

end Artifact

/-- Each of the artifacts has a source of its own, which has been opened, and no others with a
source are remembered. -/
structure World.OwnedBy (w : World R X σ) (as : List (Artifact R X)) : Prop where
  opened : ∀ a ∈ as, ∀ s, a.source? = some s → s.cache < w.nextCache
  unique : ∀ a ∈ as, ∀ b ∈ as, ∀ s, a.source? = some s → b.source? = some s → a = b
  remembered : ∀ entry ∈ w.remembered, entry.2.Among as

namespace World

variable {w : World R X σ} {as : List (Artifact R X)}

theorem ownedBy_new (outside : σ) : (new (R := R) (X := X) outside).OwnedBy [] :=
  ⟨List.forall_mem_nil _, List.forall_mem_nil _, List.forall_mem_nil _⟩

/-- The number of a source that is opened is higher than those of all artifacts there are. -/
theorem OwnedBy.openSource (hw : w.OwnedBy as) (d : PolicyDocument) (resolver : R) :
    (w.openSource resolver).2.OwnedBy (.standard d (some (w.openSource resolver).1) :: as) where
  opened := by
    refine List.forall_mem_cons.2 ⟨?_, fun a ha s hs => Nat.lt_succ_of_lt (hw.opened a ha s hs)⟩
    rintro _ ⟨⟩
    exact Nat.lt_succ_self _
  unique := by
    have hnew (a : Artifact R X) (ha : a ∈ as) :
        a.source? ≠ some (w.openSource resolver).1 :=
      fun hs => Nat.lt_irrefl _ (hw.opened a ha _ hs)
    intro a ha b hb s hs hs'
    obtain rfl | ha := List.mem_cons.1 ha
    · obtain rfl | hb := List.mem_cons.1 hb
      · rfl
      · cases hs
        exact absurd hs' (hnew b hb)
    · obtain rfl | hb := List.mem_cons.1 hb
      · cases hs'
        exact absurd hs (hnew a ha)
      · exact hw.unique a ha b hb s hs hs'
  remembered entry hentry := (hw.remembered entry hentry).mono (List.subset_cons_self _ _)

theorem OwnedBy.changed (hw : w.OwnedBy as) (outside : σ) : World.OwnedBy { w with outside } as :=
  ⟨hw.opened, hw.unique, hw.remembered⟩

theorem OwnedBy.remember (hw : w.OwnedBy as) (s : Source R) (k : ReferenceKey) {a : Artifact R X}
    (ha : a.Among as) : (w.remember s k a).OwnedBy as :=
  ⟨hw.opened, hw.unique, List.forall_mem_cons.2 ⟨ha, hw.remembered⟩⟩

end World

variable [DecidableEq R] {sur : Surroundings R X σ} {ev : Evaluator σ} {as : List (Artifact R X)}

omit [DecidableEq R] in
/-- What is fetched has been looked up. -/
theorem mem_lookUps_of_fetch {source : Option (Source R)} {r : Reference} {outside o : σ}
    {a : Artifact R X} (h : fetch sur (source.map Source.resolver) r outside = .ok a o) :
    ∃ resolver id pattern, Event.lookUp resolver id pattern (.ok a) ∈ lookUps sur source r outside := by
  obtain _ | s := source
  · cases h
  cases hpattern : r.target.pattern with
  | error e =>
    simp only [fetch, Option.map_some, hpattern] at h
    cases h
  | ok pattern =>
    simp only [fetch, Option.map_some, hpattern, Bind.bind, EStateM.bind] at h
    simp only [lookUps, hpattern]
    cases hanswer : sur.lookUp s.resolver r.target.value pattern outside with
    | error e t => rw [hanswer] at h; cases h
    | ok b t =>
      simp only [hanswer] at h
      split at h <;> cases h
      exact ⟨_, _, _, List.mem_singleton_self _⟩

namespace Visit

variable {x : Visit R X σ} {a : Artifact R X}

/-- What resolvers answer to a reference is among the artifacts. -/
def AnsweredFrom (sur : Surroundings R X σ) (as : List (Artifact R X)) (x : Visit R X σ) : Prop :=
  ∀ a, x.Fetches sur a → a.Among as

theorem answeredFrom_of_known (h : x.known? = some a) : x.AnsweredFrom sur as := by
  rintro b ⟨_, _, _, hcall, -⟩
  rw [calls_of_known h] at hcall
  cases hcall

/-- What a reference resolves to was remembered or is fetched. -/
theorem among_of_outcome (hw : x.world.OwnedBy as) (hx : x.AnsweredFrom sur as)
    (h : x.outcome sur = .ok a) : a.Among as := by
  cases hknown : x.known? with
  | some b =>
    have hsame : b = a := by
      rw [outcome, resolve_of_known hknown] at h
      exact Except.ok.inj h
    obtain ⟨s, -, hremembered⟩ := Option.bind_eq_some_iff.1 hknown
    obtain ⟨before, after, hentries, -⟩ := List.lookup_eq_some_iff.1 hremembered
    exact hsame ▸ hw.remembered _ (hentries ▸ List.mem_append_cons_self)
  | none =>
    rw [outcome_of_unknown hknown] at h
    cases hfetch : fetch sur (x.source.map Source.resolver) x.reference x.world.outside with
    | error e o => rw [hfetch] at h; cases h
    | ok b o =>
      rw [hfetch] at h
      obtain rfl := Except.ok.inj h
      obtain ⟨resolver, id, pattern, hmem⟩ := mem_lookUps_of_fetch hfetch
      refine hx b ⟨resolver, id, pattern, ?_, (kind_of_fetch hfetch).2⟩
      rwa [calls_of_unknown hknown]

end Visit

theorem World.OwnedBy.next {x : Visit R X σ} (hw : x.world.OwnedBy as)
    (hx : x.AnsweredFrom sur as) : (x.next sur).OwnedBy as := by
  have houtcome {a : Artifact R X} (h : answerOf (resolve sur x.source x.reference x.world) = .ok a) :
      a.Among as := Visit.among_of_outcome hw hx h
  rw [Visit.next]
  obtain ⟨a, -, hresolve⟩ | ⟨e, o, -, -, hresolve⟩ | ⟨s, a, o, -, -, -, -, hresolve⟩ :=
    resolve_cases sur x.source x.reference x.world <;> rw [hresolve] at houtcome ⊢
  · exact hw
  · exact hw.changed o
  · exact (hw.changed o).remember s x.reference.key (houtcome rfl)

/-- What comes next, what is being evaluated and what is remembered is among the artifacts. -/
structure Moment.Within (m : Moment R X σ) (as : List (Artifact R X)) : Prop where
  task : ∀ a, m.task = .artifact a → a.Among as
  enclosing : ∀ a ∈ enclosing m.pending, a.Among as
  world : m.state.world.OwnedBy as

omit [DecidableEq R] in
theorem task_after_ne {pending : List (Pending R X)} {next : α → Task R X × List (Pending R X)}
    {a : Artifact R X} (hnext : ∀ b, (next b).1 ≠ .artifact a)
    (r : EStateM.Result EvaluationError (Evaluation R X σ) α) :
    (after pending next r).task ≠ .artifact a := by
  cases r with
  | ok b s => exact hnext b
  | error e s => exact nofun

/-- Only turning to a reference leads to an artifact, and to the one that it resolves to. -/
theorem exists_visit_of_step {m n : Moment R X σ} {a : Artifact R X}
    (h : step sur ev m = some n) (hn : n.task = .artifact a) :
    ∃ x, m.visit? = some x ∧ x.outcome sur = .ok a := by
  cases hvisit : m.visit? with
  | some x =>
    refine ⟨x, rfl, ?_⟩
    cases houtcome : x.outcome sur with
    | ok b =>
      obtain ⟨p, hstep⟩ := (step_of_visit hvisit).1 b houtcome
      cases h.symm.trans hstep
      cases hn
      rfl
    | error e =>
      cases h.symm.trans ((step_of_visit hvisit).2 e houtcome)
      cases hn
  | none =>
    exfalso
    obtain ⟨task, pending, s⟩ := m
    cases task with
    | artifact b =>
      cases b with
      | external d x => cases h; exact task_after_ne (by simp) _ hn
      | standard d source =>
        cases h
        simp only [stepInto] at hn
        cases henter : s.chain.enter (Artifact.standard (X := X) d source).key with
        | error e => rw [henter] at hn; cases hn
        | ok chain => rw [henter] at hn; cases d <;> cases hn
    | policy p => cases h; exact task_after_ne (by simp) _ hn
    | set source t =>
      cases h
      refine task_after_ne (fun applies => ?_) _ hn
      cases applies <;> simp
    | members p =>
      obtain ⟨source, algorithm, decisions, _ | ⟨m, rest⟩⟩ := p
      · cases h; exact task_after_ne (by simp) _ hn
      · cases h
        cases m with
        | reference kind r => cases hvisit
        | _ => cases hn
    | decided d => obtain _ | ⟨_ | _, rest⟩ := pending <;> cases h <;> cases hn
    | failed e => obtain _ | ⟨_ | _, rest⟩ := pending <;> cases h <;> cases hn

/-- A step stays within the artifacts, if resolvers do. -/
theorem Moment.Within.step {m n : Moment R X σ} (hm : m.Within as)
    (hanswers : ∀ x, m.visit? = some x → x.AnsweredFrom sur as) (h : step sur ev m = some n) :
    n.Within as where
  task a hn := by
    obtain ⟨x, hvisit, houtcome⟩ := exists_visit_of_step h hn
    have hworld : x.world = m.state.world := by
      obtain ⟨_, -, rfl⟩ := Option.map_eq_some_iff.1 hvisit
      rfl
    exact Visit.among_of_outcome (hworld ▸ hm.world) (hanswers x hvisit) houtcome
  enclosing := by
    obtain ⟨-, hpending⟩ | ⟨a, htask, -, hpending⟩ | ⟨a, hpending, -⟩ := step_cases h
    · exact hpending ▸ hm.enclosing
    · rw [hpending]
      exact List.forall_mem_cons.2 ⟨hm.task a htask, hm.enclosing⟩
    · have henclosing := hm.enclosing
      rw [hpending] at henclosing
      exact (List.forall_mem_cons.1 henclosing).2
  world := by
    obtain ⟨source, r, hreference, hworld⟩ | ⟨-, outside, hworld⟩ := world_step_cases h
    · have hvisit : m.visit? = some ⟨(AccessPolicy.enclosing m.pending).head?, source, r,
          m.state.world⟩ := by
        rw [Moment.visit?, hreference]
        rfl
      rw [hworld]
      exact World.OwnedBy.next (x := ⟨_, source, r, _⟩) hm.world (hanswers _ hvisit)
    · rw [hworld]
      exact hm.world.changed outside

theorem Run.within {m last : Moment R X σ} {ms : List (Moment R X σ)} (h : Run sur ev m ms last)
    (hanswers : ∀ x ∈ ms.filterMap Moment.visit?, x.AnsweredFrom sur as) (hm : m.Within as) :
    (∀ n ∈ ms, n.Within as) ∧ last.Within as := by
  induction h with
  | refl => exact ⟨List.forall_mem_nil _, hm⟩
  | head hstep _ ih =>
    have hfirst := hm.step (fun x hx => hanswers x
      (List.mem_filterMap.2 ⟨_, List.mem_cons_self, hx⟩)) hstep
    obtain ⟨hms, hlast⟩ := ih (fun x hx => hanswers x (by
      obtain ⟨n, hn, hvisit⟩ := List.mem_filterMap.1 hx
      exact List.mem_filterMap.2 ⟨n, List.mem_cons_of_mem _ hn, hvisit⟩)) hfirst
    exact ⟨List.forall_mem_cons.2 ⟨hm, hms⟩, hlast⟩

omit [DecidableEq R] in
/-- The artifact on whose behalf a reference is resolved is among the artifacts. -/
theorem Moment.Within.visit? {m : Moment R X σ} (hm : m.Within as) {x : Visit R X σ}
    (h : m.visit? = some x) {a : Artifact R X} (ha : x.artifact? = some a) : a.Among as := by
  obtain ⟨_, -, rfl⟩ := Option.map_eq_some_iff.1 h
  exact hm.enclosing a (List.mem_of_head? ha)

/-- Evaluating one of the artifacts keeps to them. -/
theorem Run.keepsOwned {a : Artifact R X} {chain : EvaluationChain} {w : World R X σ}
    {ms : List (Moment R X σ)}
    (h : Run sur ev (start a ⟨chain, w⟩) ms (settle [] (evaluateIn sur ev a ⟨chain, w⟩)))
    (hanswers : ∀ x ∈ ms.filterMap Moment.visit?, x.AnsweredFrom sur as) (ha : a.Among as)
    (hw : w.OwnedBy as) :
    (∀ x ∈ ms.filterMap Moment.visit?, ∀ b, x.artifact? = some b → b.Among as) ∧
      (endState (evaluateIn sur ev a ⟨chain, w⟩)).world.OwnedBy as := by
  have hstart : (start a ⟨chain, w⟩).Within as :=
    ⟨by rintro _ ⟨⟩; exact ha, List.forall_mem_nil _, hw⟩
  obtain ⟨hms, hlast⟩ := h.within hanswers hstart
  refine ⟨fun x hx b hb => ?_, ?_⟩
  · obtain ⟨m, hm, hvisit⟩ := List.mem_filterMap.1 hx
    exact (hms m hm).visit? hvisit hb
  · have hworld := hlast.world
    rwa [Visited.world_settle] at hworld

/-- What happens from one world to another when artifacts come from nothing but construction, with
the artifacts there are in the one world and in the other and the references that are turned to on
the way. A source is opened for each artifact that is made with one; none but the artifacts that
there are resolve references in advance, are evaluated or are answered by resolvers. -/
inductive Timeline (sur : Surroundings R X σ) :
    List (Artifact R X) → World R X σ → List (Visit R X σ) → List (Artifact R X) →
      World R X σ → Prop
  | done {as : List (Artifact R X)} {w : World R X σ} : Timeline sur as w [] as w
  | made {as bs : List (Artifact R X)} {w v : World R X σ} {vs : List (Visit R X σ)}
      (d : PolicyDocument) (resolver : R)
      (hrest : Timeline sur (.standard d (some (w.openSource resolver).1) :: as)
        (w.openSource resolver).2 vs bs v) : Timeline sur as w vs bs v
  | resolved {as bs : List (Artifact R X)} {w v : World R X σ} {vs : List (Visit R X σ)}
      {r : Reference} (d : PolicyDocument) (source : Option (Source R))
      (ha : (Artifact.standard (X := X) d source).Among as) (hr : r ∈ d.references)
      (hanswers : Visit.AnsweredFrom sur as ⟨some (.standard d source), source, r, w⟩)
      (hrest : Timeline sur as (endState (resolve sur source r w)) vs bs v) :
      Timeline sur as w (⟨some (.standard d source), source, r, w⟩ :: vs) bs v
  | evaluated {as bs : List (Artifact R X)} {w v : World R X σ} {vs : List (Visit R X σ)}
      {ms : List (Moment R X σ)} (ev : Evaluator σ) (a : Artifact R X) (chain : EvaluationChain)
      (ha : a.Among as)
      (hrun : Run sur ev (start a ⟨chain, w⟩) ms (settle [] (evaluateIn sur ev a ⟨chain, w⟩)))
      (hanswers : ∀ x ∈ ms.filterMap Moment.visit?, x.AnsweredFrom sur as)
      (hrest : Timeline sur as (endState (evaluateIn sur ev a ⟨chain, w⟩)).world vs bs v) :
      Timeline sur as w (ms.filterMap Moment.visit? ++ vs) bs v
  | changed {as bs : List (Artifact R X)} {w v : World R X σ} {vs : List (Visit R X σ)}
      (outside : σ) (hrest : Timeline sur as { w with outside } vs bs v) :
      Timeline sur as w vs bs v

namespace Timeline

variable {bs : List (Artifact R X)} {w v : World R X σ} {vs : List (Visit R X σ)}

theorem visited (h : Timeline sur as w vs bs v) : Visited sur w vs v := by
  induction h with
  | done => exact .done
  | made d resolver _ ih => exact .meanwhile (by rfl) ih
  | resolved d source _ hr _ _ ih => exact .resolved d source hr ih
  | evaluated ev a chain _ hrun _ _ ih => exact .evaluated ev a chain hrun ih
  | changed outside _ ih => exact .meanwhile (by rfl) ih

/-- Resolving references in advance is such a timeline, if resolvers answer from what there is. -/
theorem exists_of_resolveAll (sur : Surroundings R X σ) (d : PolicyDocument)
    (source : Option (Source R)) {rs : List Reference} (hrs : rs ⊆ d.references)
    (w : World R X σ) :
    ∃ vs, (∀ x ∈ vs, x.artifact? = some (.standard d source)) ∧
      ∀ as, (Artifact.standard (X := X) d source).Among as → (∀ x ∈ vs, x.AnsweredFrom sur as) →
        Timeline sur as w vs as (endState (resolveAll sur source rs w)) := by
  induction rs generalizing w with
  | nil => exact ⟨[], List.forall_mem_nil _, fun _ _ _ => .done⟩
  | cons r rest ih =>
    obtain ⟨hr, hrest⟩ := List.cons_subset.1 hrs
    simp only [resolveAll, Bind.bind, EStateM.bind]
    cases hrun : resolve sur source r w with
    | error e t =>
      refine ⟨[⟨some (.standard d source), source, r, w⟩], List.forall_mem_singleton.2 rfl,
        fun as ha hanswers => ?_⟩
      refine .resolved d source ha hr (hanswers _ List.mem_cons_self) ?_
      rw [hrun]
      exact .done
    | ok a t =>
      obtain ⟨vs, hvs, htimeline⟩ := ih hrest t
      refine ⟨⟨some (.standard d source), source, r, w⟩ :: vs, List.forall_mem_cons.2 ⟨rfl, hvs⟩,
        fun as ha hanswers => ?_⟩
      obtain ⟨hfirst, hothers⟩ := List.forall_mem_cons.1 hanswers
      refine .resolved d source ha hr hfirst ?_
      rw [hrun]
      exact htimeline as ha hothers

theorem subset (h : Timeline sur as w vs bs v) : as ⊆ bs := by
  induction h with
  | done => exact List.Subset.refl _
  | made _ _ _ ih => exact (List.cons_subset.1 ih).2
  | resolved _ _ _ _ _ _ ih => exact ih
  | evaluated _ _ _ _ _ _ _ ih => exact ih
  | changed _ _ ih => exact ih

/-- Whatever happens, artifacts keep sources of their own. -/
theorem ownedBy (h : Timeline sur as w vs bs v) (hw : w.OwnedBy as) : v.OwnedBy bs := by
  induction h with
  | done => exact hw
  | made d resolver _ ih => exact ih (hw.openSource d resolver)
  | resolved d source _ _ hanswers _ ih =>
    exact ih (World.OwnedBy.next (x := ⟨_, source, _, _⟩) hw hanswers)
  | evaluated ev a chain ha hrun hanswers _ ih => exact ih (hrun.keepsOwned hanswers ha hw).2
  | changed outside _ ih => exact ih (hw.changed outside)

/-- References are resolved on behalf of artifacts that there are. -/
theorem among (h : Timeline sur as w vs bs v) (hw : w.OwnedBy as) :
    ∀ x ∈ vs, ∀ a, x.artifact? = some a → a.Among bs := by
  induction h with
  | done => exact List.forall_mem_nil _
  | made d resolver _ ih => exact ih (hw.openSource d resolver)
  | resolved d source ha _ hanswers hrest ih =>
    refine List.forall_mem_cons.2 ⟨?_, ih (World.OwnedBy.next (x := ⟨_, source, _, _⟩) hw hanswers)⟩
    rintro _ ⟨⟩
    exact ha.mono hrest.subset
  | evaluated ev a chain ha hrun hanswers hrest ih =>
    obtain ⟨hvisits, hworld⟩ := hrun.keepsOwned hanswers ha hw
    exact List.forall_mem_append.2
      ⟨fun x hx b hb => (hvisits x hx b hb).mono hrest.subset, ih hworld⟩
  | changed outside _ ih => exact ih (hw.changed outside)

/-- A source belongs to one artifact: whatever is resolved for it is resolved on its behalf. -/
theorem artifact?_eq (h : Timeline sur as w vs bs v) (hw : w.OwnedBy as) {d : PolicyDocument}
    {source : Option (Source R)} (ha : (Artifact.standard (X := X) d source).Among as) :
    ∀ x ∈ vs, source.isSome → x.source = source →
      x.artifact? = some (.standard d source) := by
  intro x hx hsome hsource
  obtain ⟨s, rfl⟩ := Option.isSome_iff_exists.1 hsome
  obtain ⟨d', hartifact, -⟩ := h.visited.placed x hx
  rw [hsource] at hartifact
  have hmem := (h.among hw x hx _ hartifact).mem rfl
  have hself : Artifact.standard d (some s) ∈ bs := h.subset (ha.mem rfl)
  rw [hartifact, (h.ownedBy hw).unique _ hmem _ hself s rfl rfl]

end Timeline

end AccessPolicy
