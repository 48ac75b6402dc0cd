import AccessPolicy.Proofs.Evaluation.LookUps
import AccessPolicy.Proofs.Evaluation.Memory

namespace AccessPolicy

open Evaluation Moment

variable {R X σ : Type} [DecidableEq R] {sur : Surroundings R X σ} {ev : Evaluator σ}

namespace Follow

variable {w v : World R X σ} {vs : List (Visit R X σ)} {t : Option (Source R)} {k : ReferenceKey}

theorem known {b : Artifact R X} (h : Follow sur w vs v) (hw : w.known? t k = some b) :
    (∀ x ∈ vs, x.world.known? t k = some b) ∧ v.known? t k = some b :=
  h.invariant (P := fun w => w.known? t k = some b)
    (fun hsame hw => (World.known?_congr hsame t k).trans hw)
    (fun x _ hx => World.known?_resolve_of_known sur x.source x.reference hx) hw

/-- What no visit is of stays known or unknown as it was. -/
theorem known?_eq (h : Follow sur w vs v) (hvs : ∀ x ∈ vs, ¬x.Of t k) :
    v.known? t k = w.known? t k := by
  induction h with
  | nil hend => exact World.known?_congr hend t k
  | @cons w v x vs hfirst _ ih =>
    obtain ⟨hx, hrest⟩ := List.forall_mem_cons.1 hvs
    have hother : (t, k) ≠ (x.source, x.reference.key) := by
      intro heq
      obtain ⟨hsource, hkey⟩ := Prod.mk.inj heq
      exact hx ⟨hsource.symm, hkey.symm⟩
    calc v.known? t k
        = (x.next sur).known? t k := ih hrest
      _ = x.world.known? t k := World.known?_resolve_of_ne sur hother
      _ = w.known? t k := World.known?_congr hfirst t k

theorem sound (h : Follow sur w vs v) (hw : w.Sound) : (∀ x ∈ vs, x.world.Sound) ∧ v.Sound :=
  h.invariant (fun hsame hw => ⟨hsame ▸ hw.kind, hsame ▸ hw.nodup⟩)
    (fun x _ hx => hx.resolve sur x.source x.reference) hw

end Follow

theorem World.History.sound {w : World R X σ} (h : w.History sur) : w.Sound :=
  h.invariant (fun source r _ hw => hw.resolve sur source r) (fun _ _ hw => ⟨hw.kind, hw.nodup⟩)
    World.sound_new (fun _ _ hw => ⟨hw.kind, hw.nodup⟩)

/-- A call that is made for the reference returns this artifact, and it is of the right kind. -/
def Visit.Fetches (sur : Surroundings R X σ) (x : Visit R X σ) (a : Artifact R X) : Prop :=
  ∃ resolver id pattern, Event.lookUp resolver id pattern (.ok a) ∈ x.calls sur ∧
    a.kind = x.reference.kind

theorem length_callsFor_le (sur : Surroundings R X σ) (source : Option (Source R)) (r : Reference)
    (w : World R X σ) : (callsFor sur source r w).length ≤ 1 := by
  simp only [callsFor]
  cases w.known? source r.key with
  | some a => exact Nat.zero_le 1
  | none =>
    simp only [lookUps]
    split
    · exact Nat.le_refl 1
    · exact Nat.zero_le 1

omit [DecidableEq R] in
/-- A look-up that returns an artifact of the right kind is what fetching gives. -/
theorem answerOf_fetch_of_mem_lookUps {source : Option (Source R)} {r : Reference} {outside : σ}
    {resolver : R} {id : String} {pattern : Option VersionPattern} {a : Artifact R X}
    (h : Event.lookUp resolver id pattern (.ok a) ∈ lookUps sur source r outside)
    (hkind : a.kind = r.kind) :
    answerOf (fetch sur (source.map Source.resolver) r outside) = .ok a := by
  simp only [lookUps] at h
  split at h
  · next s pattern' hpattern =>
    have hcall := List.mem_singleton.1 h
    simp only [Event.lookUp.injEq] at hcall
    obtain ⟨-, -, -, hanswer⟩ := hcall
    simp only [fetch, Option.map_some, hpattern, Bind.bind, EStateM.bind]
    cases hrun : sur.lookUp s.resolver r.target.value pattern' outside with
    | error e o => rw [hrun] at hanswer; cases hanswer
    | ok b o =>
      rw [hrun] at hanswer
      cases hanswer
      simp only [if_pos hkind]
      rfl
  · cases h

namespace Visit

variable {x : Visit R X σ} {a : Artifact R X}

/-- What is fetched is what the reference resolves to, and from then on it is known. -/
theorem Fetches.known (h : x.Fetches sur a) :
    (x.next sur).known? x.source x.reference.key = some a := by
  obtain ⟨resolver, id, pattern, hcall, hkind⟩ := h
  have hunknown : x.known? = none := by
    cases hknown : x.known? with
    | none => rfl
    | some b => rw [calls_of_known hknown] at hcall; cases hcall
  rw [calls_of_unknown hunknown] at hcall
  have houtcome : x.outcome sur = .ok a :=
    (outcome_of_unknown hunknown).trans (answerOf_fetch_of_mem_lookUps hcall hkind)
  have hself := World.known?_resolve_self sur x.source x.reference x.world
  rw [outcome] at houtcome
  rw [houtcome] at hself
  exact hself

theorem unknown_of_failed {e : ResolutionError} (h : x.outcome sur = .error e) :
    (x.next sur).known? x.source x.reference.key = none := by
  have hself := World.known?_resolve_self sur x.source x.reference x.world
  rw [outcome] at h
  rw [h] at hself
  exact hself

end Visit

/-- Resolving is all that is done when a reference is turned to, and the outcome is what is
evaluated next or how the evaluation fails. -/
theorem step_of_visit {m : Moment R X σ} {x : Visit R X σ} (h : m.visit? = some x) :
    (∀ a, x.outcome sur = .ok a → ∃ p, step sur ev m =
      some ⟨.artifact a, .member p :: m.pending, ⟨m.state.chain, x.next sur⟩⟩) ∧
    (∀ e, x.outcome sur = .error e → step sur ev m =
      some ⟨.failed (.resolution e), m.pending, ⟨m.state.chain, x.next sur⟩⟩) := by
  obtain ⟨⟨source, r⟩, hreference, rfl⟩ := Option.map_eq_some_iff.1 h
  obtain ⟨p, hstep⟩ := step_of_reference sur ev hreference
  simp only [Visit.outcome, Visit.next, hstep, act]
  cases resolve sur source r m.state.world with
  | ok a w =>
    constructor
    · rintro _ ⟨⟩
      exact ⟨p, rfl⟩
    · rintro _ ⟨⟩
  | error e w =>
    constructor
    · rintro _ ⟨⟩
    · rintro _ ⟨⟩
      rfl

/-- What becomes of the references that are turned to one after the other, from one world to
another. -/
structure FetchedOnce (sur : Surroundings R X σ) (w : World R X σ) (vs : List (Visit R X σ))
    (v : World R X σ) : Prop where
  /-- One call at most is made each time. -/
  calls : ∀ x ∈ vs, (x.calls sur).length ≤ 1
  /-- Once a call has returned an artifact of the right kind, none is made for that reference any
  more, and that artifact is what it resolves to. -/
  once : vs.Pairwise fun x y => ∀ a, x.Fetches sur a → y.Of x.source x.reference.key →
    y.calls sur = [] ∧ y.outcome sur = .ok a
  /-- Everything that is remembered has the right kind, and is remembered once. -/
  sound : (∀ x ∈ vs, x.world.Sound) ∧ v.Sound
  /-- Nothing that is remembered is replaced or removed. -/
  kept : (∀ t k b, w.known? t k = some b →
      (∀ x ∈ vs, x.world.known? t k = some b) ∧ v.known? t k = some b) ∧
    vs.Pairwise (fun x y => ∀ t k b, x.world.known? t k = some b →
      y.world.known? t k = some b) ∧
    ∀ x ∈ vs, ∀ t k b, x.world.known? t k = some b → v.known? t k = some b
  /-- What is remembered is what the reference resolves to, without a call or any other effect. -/
  recalled : ∀ x ∈ vs, ∀ a, x.known? = some a →
    x.calls sur = [] ∧ resolve sur x.source x.reference x.world = .ok a x.world
  /-- A failure leaves what is remembered unchanged. -/
  failed : ∀ x ∈ vs, ∀ e, x.outcome sur = .error e →
    (x.next sur).remembered = x.world.remembered
  /-- After a failure the reference is looked up anew the next time that it is turned to. -/
  retried : ∀ before x between y after e, vs = before ++ x :: between ++ y :: after →
    x.outcome sur = .error e → y.Of x.source x.reference.key →
    (∀ z ∈ between, ¬z.Of x.source x.reference.key) →
    y.calls sur = lookUps sur y.source y.reference y.world.outside ∧
      y.outcome sur =
        answerOf (fetch sur (y.source.map Source.resolver) y.reference y.world.outside)

theorem Follow.fetchedOnce {w v : World R X σ} {vs : List (Visit R X σ)} (hw : w.Sound)
    (h : Follow sur w vs v) : FetchedOnce sur w vs v where
  calls x _ := length_callsFor_le sur x.source x.reference x.world
  once := by
    refine h.pairwise fun {x ys v} hrest y hy a hfetches hof => ?_
    have hknown := (hrest.known hfetches.known).1 y hy
    rw [← hof.1, ← hof.2] at hknown
    refine ⟨y.calls_of_known hknown, ?_⟩
    rw [Visit.outcome, resolve_of_known hknown]
    rfl
  sound := h.sound hw
  kept := by
    refine ⟨fun t k b hb => h.known hb, h.pairwise fun {x ys v} hrest y hy t k b hx => ?_,
      fun x hx t k b hb => ?_⟩
    · exact (hrest.known (World.known?_resolve_of_known sur x.source x.reference hx)).1 y hy
    · obtain ⟨before, after, rfl⟩ := List.append_of_mem hx
      obtain ⟨-, hafter⟩ := h.split
      exact (hafter.known (World.known?_resolve_of_known sur x.source x.reference hb)).2
  recalled x _ a ha := ⟨x.calls_of_known ha, resolve_of_known ha⟩
  failed x _ e he := World.remembered_resolve_of_error he
  retried := by
    rintro before x between y after e rfl hfails hof hbetween
    rw [List.append_assoc, List.cons_append] at h
    obtain ⟨-, hafter⟩ := h.split
    obtain ⟨hbefore, -⟩ := hafter.split
    have hunknown : y.known? = none := by
      rw [Visit.known?, hof.1, hof.2, hbefore.known?_eq hbetween]
      exact x.unknown_of_failed hfails
    exact ⟨y.calls_of_unknown hunknown, y.outcome_of_unknown hunknown⟩

/-- The references that are turned to while artifacts are evaluated one after the other. -/
theorem Visited.exists_afterAll (w : World R X σ) (earlier : List (Evaluator σ × Artifact R X)) :
    ∃ vs, Visited sur w vs (w.afterAll sur earlier) := by
  induction earlier generalizing w with
  | nil => exact ⟨[], .done⟩
  | cons e rest ih =>
    obtain ⟨vs, hfirst⟩ := Visited.exists_of_evaluateIn sur e.1 e.2 .empty w
    rw [← endState_evaluate] at hfirst
    obtain ⟨us, hrest⟩ := ih (endState (evaluate sur e.1 e.2 w))
    exact ⟨vs ++ us, hfirst.append hrest⟩

/-- Each reference of an artifact is fetched successfully at most once, and only artifacts of the
right kind are remembered, whatever resolvers answer and however they change. This holds of all
references that are turned to while artifacts are evaluated one after the other, with a decision or
an error. The calls of resolvers that an evaluation makes are those made for these references, and
what a reference resolves to is what is evaluated next. -/
theorem visited_fetchedOnce {w : World R X σ} (hw : w.History sur) :
    (∀ earlier, ∃ vs, Visited sur w vs (w.afterAll sur earlier)) ∧
    (∀ ev a s ms, Run sur ev (start a s) ms (settle [] (evaluateIn sur ev a s)) →
      ∃ events : List (Event R X),
        (∀ before, evaluateIn (sur.recorded ev) ev.recorded a (s.journaled before) =
          mapEnd (Evaluation.journaled (before ++ events)) (evaluateIn sur ev a s)) ∧
        events.filter Event.isLookUp = (ms.filterMap Moment.visit?).flatMap (Visit.calls sur)) ∧
    (∀ ev m x, m.visit? = some x →
      (∀ a, x.outcome sur = .ok a → ∃ p, step sur ev m =
        some ⟨.artifact a, .member p :: m.pending, ⟨m.state.chain, x.next sur⟩⟩) ∧
      (∀ e, x.outcome sur = .error e → step sur ev m =
        some ⟨.failed (.resolution e), m.pending, ⟨m.state.chain, x.next sur⟩⟩)) ∧
    ∀ vs v, Visited sur w vs v → (∀ x ∈ vs, x.Placed) ∧ FetchedOnce sur w vs v :=
  ⟨Visited.exists_afterAll w, fun _ _ _ _ hrun => lookUps_evaluateIn hrun,
    fun _ _ _ hvisit => step_of_visit hvisit,
    fun _ _ hvisited => ⟨hvisited.placed, hvisited.follow.fetchedOnce hw.sound⟩⟩

/-- A resolver that counts its calls: it fails first, then answers with a set, then with a policy
and from then on with another one. -/
def changing : Surroundings Unit Empty Nat where
  lookUp _ id _ := fun calls =>
    match calls with
    | 0 => .error (.notFound id none) 1
    | 1 => .ok outerArtifact 2
    | 2 => .ok leafArtifact 3
    | calls + 1 => .ok (.standard (.policy (Policy.new "other" "first")) none) (calls + 2)
  decide x := x.elim

def permitting : Evaluator Nat where
  applies _ := pure true
  policy _ := pure .permit
  combine _ ds := pure (ds.headD .notApplicable)

def leafReference : Artifact Unit Empty :=
  .standard (.policySet ((PolicySet.new "set" "first").withReference .policy (.new "leaf")))
    (some ⟨(), 0⟩)

/-- Of four evaluations the first two fail, the third finds the policy, and the fourth makes no
call. -/
theorem visited_fetchedOnce_changing :
    (∃ vs, Visited changing (.new 0) vs
        ((World.new 0).afterAll changing (List.replicate 4 (permitting, leafReference))) ∧
      FetchedOnce changing (.new 0) vs
        ((World.new 0).afterAll changing (List.replicate 4 (permitting, leafReference)))) ∧
    ((World.new 0).afterAll changing (List.replicate 4 (permitting, leafReference))).outside = 3 := by
  have hnew : (World.new 0).History changing := .new 0
  obtain ⟨hexists, -, -, honce⟩ := visited_fetchedOnce hnew
  obtain ⟨vs, hvisited⟩ := hexists (List.replicate 4 (permitting, leafReference))
  exact ⟨⟨vs, hvisited, (honce vs _ hvisited).2⟩, rfl⟩

end AccessPolicy
