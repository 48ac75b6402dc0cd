import AccessPolicy.Proofs.Evaluation.Calls
import AccessPolicy.Proofs.Evaluation.ReferencePath

namespace AccessPolicy

open Evaluation Moment

variable {R X σ : Type}

/-- A reference that is turned to in some world. -/
structure Visit (R X σ : Type) where
  /-- The artifact that is being constructed, or the innermost one that is being evaluated. -/
  artifact? : Option (Artifact R X)
  /-- The source of the document that the reference stands in. -/
  source : Option (Source R)
  reference : Reference
  world : World R X σ

/-- The reference that is turned to next. -/
def Moment.visit? (m : Moment R X σ) : Option (Visit R X σ) :=
  m.task.reference?.map fun sr => ⟨(enclosing m.pending).head?, sr.1, sr.2, m.state.world⟩

/-- The reference stands in the document of the artifact on whose behalf it is resolved. -/
def Visit.Placed (x : Visit R X σ) : Prop :=
  ∃ d, x.artifact? = some (.standard d x.source) ∧ x.reference ∈ d.references

namespace Visit

variable [DecidableEq R]

def outcome (sur : Surroundings R X σ) (x : Visit R X σ) :
    Except ResolutionError (Artifact R X) :=
  answerOf (resolve sur x.source x.reference x.world)

/-- The calls that are made on behalf of the reference. -/
def calls (sur : Surroundings R X σ) (x : Visit R X σ) : List (Event R X) :=
  callsFor sur x.source x.reference x.world

def next (sur : Surroundings R X σ) (x : Visit R X σ) : World R X σ :=
  endState (resolve sur x.source x.reference x.world)

/-- It is a visit of the reference with the key, for the source. -/
def Of (source : Option (Source R)) (k : ReferenceKey) (x : Visit R X σ) : Prop :=
  x.source = source ∧ x.reference.key = k

/-- What is remembered for the reference. -/
def known? (x : Visit R X σ) : Option (Artifact R X) :=
  x.world.known? x.source x.reference.key

variable {sur : Surroundings R X σ} {x : Visit R X σ}

theorem calls_of_known {a : Artifact R X} (h : x.known? = some a) : x.calls sur = [] := by
  simp only [known?] at h
  simp only [calls, callsFor, h]

theorem calls_of_unknown (h : x.known? = none) :
    x.calls sur = lookUps sur x.source x.reference x.world.outside := by
  simp only [known?] at h
  simp only [calls, callsFor, h]

theorem outcome_of_unknown (h : x.known? = none) :
    x.outcome sur =
      answerOf (fetch sur (x.source.map Source.resolver) x.reference x.world.outside) := by
  rw [outcome, answerOf_resolve]
  simp only [known?] at h
  simp only [h]

end Visit

/-- A set, or members of one, that stand in the innermost artifact. -/
def Task.Placed (outer : List (Artifact R X)) : Task R X → Prop
  | .set source s => StandsIn source (PolicySet.referencesOf s.content) outer
  | .members p => StandsIn p.source (PolicySet.referencesOf p.rest) outer
  | .artifact _ | .policy _ | .decided _ | .failed _ => True

def Placed : List (Pending R X) → Prop
  | [] => True
  | .within _ :: rest => Placed rest
  | .member p :: rest =>
    StandsIn p.source (PolicySet.referencesOf p.rest) (enclosing rest) ∧ Placed rest

/-- What is done next and what is pending stands in the artifacts that are being evaluated. -/
structure Moment.Placed (m : Moment R X σ) : Prop where
  task : m.task.Placed (enclosing m.pending)
  pending : AccessPolicy.Placed m.pending

theorem placed_start (a : Artifact R X) (s : Evaluation R X σ) : (start a s).Placed :=
  ⟨trivial, trivial⟩

theorem placed_after {pending : List (Pending R X)} {next : α → Task R X × List (Pending R X)}
    (hpending : Placed pending)
    (hnext : ∀ a, (next a).1.Placed (enclosing (next a).2) ∧ Placed (next a).2)
    (r : EStateM.Result EvaluationError (Evaluation R X σ) α) : (after pending next r).Placed := by
  cases r with
  | ok a s => exact ⟨(hnext a).1, (hnext a).2⟩
  | error e s => exact ⟨trivial, hpending⟩

theorem placed_settle {pending : List (Pending R X)} (hpending : Placed pending)
    (r : EStateM.Result EvaluationError (Evaluation R X σ) Decision) :
    (settle pending r).Placed :=
  placed_after hpending (fun d => (⟨trivial, hpending⟩ : Task.Placed _ (.decided d) ∧ _)) r

theorem placed_stepInto {d : PolicyDocument} {source : Option (Source R)}
    {pending : List (Pending R X)} {s : Evaluation R X σ} (hpending : Placed pending) :
    (stepInto d source pending s).Placed := by
  simp only [stepInto]
  cases s.chain.enter (Artifact.standard (X := X) d source).key with
  | error e => exact ⟨trivial, hpending⟩
  | ok chain =>
    cases d with
    | policy p => exact ⟨trivial, hpending⟩
    | policySet t => exact ⟨standsIn_policySet t source _, hpending⟩

section

variable [DecidableEq R] {sur : Surroundings R X σ} {ev : Evaluator σ}

theorem placed_stepMember {p : Progress R} {x : SetMember PolicySet} {pending : List (Pending R X)}
    {s : Evaluation R X σ}
    (hstands : StandsIn p.source (PolicySet.referencesOf (x :: p.rest)) (enclosing pending))
    (hpending : Placed pending) : (stepMember sur p pending s x).Placed := by
  have hrest := hstands.mono (PolicySet.referencesOf_subset_cons p.rest x)
  cases x with
  | policy q => exact ⟨trivial, hrest, hpending⟩
  | policySet t =>
    exact ⟨hstands.mono (PolicySet.referencesOf_content_subset p.rest t), hrest, hpending⟩
  | reference kind r =>
    refine placed_after hpending (fun a => ?_) _
    exact ⟨trivial, hrest, hpending⟩
  | parameters _ => exact ⟨hrest, hpending⟩
  | policyParameters _ => exact ⟨hrest, hpending⟩
  | setParameters _ => exact ⟨hrest, hpending⟩

theorem Moment.Placed.step {m n : Moment R X σ} (hm : m.Placed) (h : step sur ev m = some n) :
    n.Placed := by
  obtain ⟨task, pending, s⟩ := m
  obtain ⟨htask, hpending⟩ := hm
  cases task with
  | artifact a =>
    cases a with
    | external d x => cases h; exact placed_settle hpending _
    | standard d source => cases h; exact placed_stepInto hpending
  | policy p => cases h; exact placed_settle hpending _
  | set source t =>
    cases h
    refine placed_after hpending (fun applies => ?_) _
    cases applies with
    | false => exact ⟨trivial, hpending⟩
    | true => exact ⟨htask, hpending⟩
  | members p =>
    obtain ⟨source, algorithm, decisions, _ | ⟨x, rest⟩⟩ := p
    · cases h; exact placed_settle hpending _
    · cases h; exact placed_stepMember htask hpending
  | decided d =>
    obtain _ | ⟨_ | p, rest⟩ := pending <;> cases h
    · exact ⟨trivial, hpending⟩
    · exact ⟨hpending.1, hpending.2⟩
  | failed e =>
    obtain _ | ⟨_ | p, rest⟩ := pending <;> cases h
    · exact ⟨trivial, hpending⟩
    · exact ⟨trivial, hpending.2⟩

end

theorem Task.reference?_eq_some_iff {t : Task R X} {source : Option (Source R)} {r : Reference} :
    t.reference? = some (source, r) ↔
      ∃ p rest, t = .members p ∧ p.source = source ∧ p.rest = .reference r.kind r.target :: rest := by
  constructor
  · intro h
    simp only [Task.reference?] at h
    split at h
    · next rest => cases h; exact ⟨_, rest, rfl, rfl, rfl⟩
    · cases h
  · rintro ⟨⟨_, _, _, _⟩, rest, rfl, rfl, rfl⟩
    rfl

/-- A reference is turned to on behalf of the artifact that it stands in. -/
theorem Moment.Placed.visit? {m : Moment R X σ} (hm : m.Placed) {x : Visit R X σ}
    (h : m.visit? = some x) : x.Placed := by
  obtain ⟨⟨source, r⟩, hreference, rfl⟩ := Option.map_eq_some_iff.1 h
  obtain ⟨p, rest, htask, rfl, hrest⟩ := Task.reference?_eq_some_iff.1 hreference
  have hstands : StandsIn p.source (PolicySet.referencesOf p.rest) (enclosing m.pending) := by
    have hplaced := hm.task
    rwa [htask] at hplaced
  obtain ⟨d, outer, houter, hrefs⟩ := hstands
  refine ⟨d, by rw [houter]; rfl, hrefs ?_⟩
  rw [hrest]
  exact PolicySet.mem_referencesOf rest r.kind r.target

variable [DecidableEq R] {sur : Surroundings R X σ} {ev : Evaluator σ}

/-- Each visit finds remembered what the one before it has left, the first one what `w` remembers,
and the last one leaves what `v` remembers. -/
inductive Follow (sur : Surroundings R X σ) :
    World R X σ → List (Visit R X σ) → World R X σ → Prop
  | nil {w v : World R X σ} (h : v.remembered = w.remembered) : Follow sur w [] v
  | cons {w v : World R X σ} {x : Visit R X σ} {vs : List (Visit R X σ)}
      (h : x.world.remembered = w.remembered) (hrest : Follow sur (x.next sur) vs v) :
      Follow sur w (x :: vs) v

namespace Follow

variable {u w v : World R X σ} {vs us : List (Visit R X σ)}

theorem congr (h : Follow sur w vs v) (hremembered : w.remembered = u.remembered) :
    Follow sur u vs v := by
  cases h with
  | nil hend => exact .nil (hend.trans hremembered)
  | cons hfirst hrest => exact .cons (hfirst.trans hremembered) hrest

theorem append (h : Follow sur w vs u) (h' : Follow sur u us v) : Follow sur w (vs ++ us) v := by
  induction h with
  | nil hend => exact h'.congr hend
  | cons hfirst _ ih => exact .cons hfirst (ih h')

/-- The visits up to one of them, and those after it. -/
theorem split {x : Visit R X σ} (h : Follow sur w (vs ++ x :: us) v) :
    Follow sur w vs x.world ∧ Follow sur (x.next sur) us v := by
  induction vs generalizing w with
  | nil =>
    cases h with
    | cons hfirst hrest => exact ⟨.nil hfirst, hrest⟩
  | cons y rest ih =>
    cases h with
    | cons hfirst hrest =>
      obtain ⟨hbefore, hafter⟩ := ih hrest
      exact ⟨.cons hfirst hbefore, hafter⟩

/-- What holds of what is remembered, and each visit keeps, holds all the way. -/
theorem invariant {P : World R X σ → Prop}
    (hsame : ∀ {w v : World R X σ}, v.remembered = w.remembered → P w → P v)
    (h : Follow sur w vs v) (hkeeps : ∀ x ∈ vs, P x.world → P (x.next sur)) (hw : P w) :
    (∀ x ∈ vs, P x.world) ∧ P v := by
  induction h with
  | nil hend => exact ⟨List.forall_mem_nil _, hsame hend hw⟩
  | cons hfirst _ ih =>
    obtain ⟨hx, hrest⟩ := List.forall_mem_cons.1 hkeeps
    have hworld := hsame hfirst hw
    obtain ⟨hvs, hv⟩ := ih hrest (hx hworld)
    exact ⟨List.forall_mem_cons.2 ⟨hworld, hvs⟩, hv⟩

/-- What relates each visit to those that follow it. -/
theorem pairwise {P : Visit R X σ → Visit R X σ → Prop}
    (hlater : ∀ {x : Visit R X σ} {ys : List (Visit R X σ)} {v : World R X σ},
      Follow sur (x.next sur) ys v → ∀ y ∈ ys, P x y)
    (h : Follow sur w vs v) : vs.Pairwise P := by
  induction h with
  | nil _ => exact .nil
  | cons _ hrest ih => exact .cons (hlater hrest) ih

end Follow

/-- The visits of a run follow each other. -/
theorem Run.follow {m last : Moment R X σ} {ms : List (Moment R X σ)} (h : Run sur ev m ms last) :
    Follow sur m.state.world (ms.filterMap Moment.visit?) last.state.world := by
  induction h with
  | refl => exact .nil rfl
  | @head m n _ _ hstep _ ih =>
    obtain ⟨source, r, hreference, hworld⟩ | ⟨hreference, outside, hworld⟩ := world_step_cases hstep
    · have hvisit : m.visit? = some ⟨(enclosing m.pending).head?, source, r, m.state.world⟩ := by
        rw [Moment.visit?, hreference]
        rfl
      rw [List.filterMap_cons_some hvisit]
      exact .cons rfl (ih.congr (congrArg World.remembered hworld))
    · have hvisit : m.visit? = none := by
        rw [Moment.visit?, hreference]
        rfl
      rw [List.filterMap_cons_none hvisit]
      exact ih.congr (by rw [hworld])

/-- The references that are turned to on the way from one world to another. Artifacts are
evaluated, references of documents are resolved in advance, and in between anything may happen that
does not touch what is remembered: sources are opened, and resolvers change. -/
inductive Visited (sur : Surroundings R X σ) :
    World R X σ → List (Visit R X σ) → World R X σ → Prop
  | done {w : World R X σ} : Visited sur w [] w
  | evaluated {w v : World R X σ} {vs : List (Visit R X σ)} {ms : List (Moment R X σ)}
      (ev : Evaluator σ) (a : Artifact R X) (chain : EvaluationChain)
      (hrun : Run sur ev (start a ⟨chain, w⟩) ms (settle [] (evaluateIn sur ev a ⟨chain, w⟩)))
      (hrest : Visited sur (endState (evaluateIn sur ev a ⟨chain, w⟩)).world vs v) :
      Visited sur w (ms.filterMap Moment.visit? ++ vs) v
  | resolved {w v : World R X σ} {vs : List (Visit R X σ)} {r : Reference} (d : PolicyDocument)
      (source : Option (Source R)) (hr : r ∈ d.references)
      (hrest : Visited sur (endState (resolve sur source r w)) vs v) :
      Visited sur w (⟨some (.standard d source), source, r, w⟩ :: vs) v
  | meanwhile {w u v : World R X σ} {vs : List (Visit R X σ)} (h : u.remembered = w.remembered)
      (hrest : Visited sur u vs v) : Visited sur w vs v

namespace Visited

variable {w u v : World R X σ} {vs us : List (Visit R X σ)}

omit [DecidableEq R] in
theorem world_settle (r : EStateM.Result EvaluationError (Evaluation R X σ) Decision) :
    (settle [] r).state.world = (endState r).world := by
  cases r <;> rfl

theorem follow (h : Visited sur w vs v) : Follow sur w vs v := by
  induction h with
  | done => exact .nil rfl
  | evaluated ev a chain hrun _ ih =>
    have hfirst := hrun.follow
    rw [world_settle] at hfirst
    exact hfirst.append ih
  | resolved d source hr _ ih => exact .cons rfl ih
  | meanwhile h _ ih => exact ih.congr h

theorem append (h : Visited sur w vs u) (h' : Visited sur u us v) : Visited sur w (vs ++ us) v := by
  induction h with
  | done => exact h'
  | evaluated ev a chain hrun _ ih =>
    rw [List.append_assoc]
    exact .evaluated ev a chain hrun (ih h')
  | resolved d source hr _ ih => exact .resolved d source hr (ih h')
  | meanwhile hsame _ ih => exact .meanwhile hsame (ih h')

/-- Each reference is resolved on behalf of the artifact that it stands in. -/
theorem placed (h : Visited sur w vs v) : ∀ x ∈ vs, x.Placed := by
  induction h with
  | done => exact List.forall_mem_nil _
  | evaluated ev a chain hrun _ ih =>
    obtain ⟨hms, -⟩ := hrun.invariant (fun _ _ hm hstep => hm.step hstep) (placed_start a _)
    refine List.forall_mem_append.2 ⟨fun x hx => ?_, ih⟩
    obtain ⟨m, hm, hvisit⟩ := List.mem_filterMap.1 hx
    exact (hms m hm).visit? hvisit
  | resolved d source hr _ ih => exact List.forall_mem_cons.2 ⟨⟨d, rfl, hr⟩, ih⟩
  | meanwhile _ _ ih => exact ih

/-- Every evaluation turns to some references. -/
theorem exists_of_evaluateIn (sur : Surroundings R X σ) (ev : Evaluator σ) (a : Artifact R X)
    (chain : EvaluationChain) (w : World R X σ) :
    ∃ vs, Visited sur w vs (endState (evaluateIn sur ev a ⟨chain, w⟩)).world := by
  obtain ⟨ms, hrun⟩ := exists_run_evaluateIn sur ev a ⟨chain, w⟩
  exact ⟨_, .evaluated ev a chain hrun .done⟩

/-- So does resolving references of a document in advance. -/
theorem exists_of_resolveAll (sur : Surroundings R X σ) (d : PolicyDocument)
    (source : Option (Source R)) {rs : List Reference} (hrs : rs ⊆ d.references)
    (w : World R X σ) :
    ∃ vs, Visited sur w vs (endState (resolveAll sur source rs w)) := by
  induction rs generalizing w with
  | nil => exact ⟨[], .done⟩
  | cons r rest ih =>
    obtain ⟨hr, hrest⟩ := List.cons_subset.1 hrs
    simp only [resolveAll, Bind.bind, EStateM.bind]
    cases hrun : resolve sur source r w with
    | error e t =>
      refine ⟨[_], .resolved d source hr ?_⟩
      rw [hrun]
      exact .done
    | ok a t =>
      obtain ⟨vs, hvs⟩ := ih hrest t
      refine ⟨_ :: vs, .resolved d source hr ?_⟩
      rw [hrun]
      exact hvs

end Visited

end AccessPolicy
