import AccessPolicy.Proofs.Evaluation.History

namespace AccessPolicy

open Evaluation Moment

variable {R X σ : Type}

/-- The document of one artifact has a reference that means the other. -/
def Refers (answers : Answers R X) (a b : Artifact R X) : Prop :=
  ∃ d source r, a = .standard d source ∧ r ∈ d.references ∧ answers.meaning source r = .ok b

/-- A path of references from the root, its end first. -/
inductive ReferencePath (answers : Answers R X) (root : Artifact R X) :
    List (Artifact R X) → Prop
  | root : ReferencePath answers root [root]
  | refer {a b : Artifact R X} {path : List (Artifact R X)}
      (h : ReferencePath answers root (a :: path)) (hrefers : Refers answers a b) :
      ReferencePath answers root (b :: a :: path)

/-- The innermost artifact has the source and all of the references. -/
def StandsIn (source : Option (Source R)) (rs : List Reference) (outer : List (Artifact R X)) :
    Prop :=
  ∃ d rest, outer = .standard d source :: rest ∧ rs ⊆ d.references

theorem StandsIn.mono {source : Option (Source R)} {qs rs : List Reference}
    {outer : List (Artifact R X)} (h : StandsIn source rs outer) (hsub : qs ⊆ rs) :
    StandsIn source qs outer := by
  obtain ⟨d, rest, houter, hrefs⟩ := h
  exact ⟨d, rest, houter, List.Subset.trans hsub hrefs⟩

/-- What a reference in the innermost artifact means is one reference further on the path. -/
theorem StandsIn.refers {answers : Answers R X} {root a : Artifact R X}
    {source : Option (Source R)} {rs : List Reference} {outer : List (Artifact R X)}
    {r : Reference} (hstands : StandsIn source rs outer)
    (hpath : ReferencePath answers root outer) (hr : r ∈ rs)
    (hmeaning : answers.meaning source r = .ok a) : ReferencePath answers root (a :: outer) := by
  obtain ⟨d, rest, rfl, hrefs⟩ := hstands
  exact hpath.refer ⟨d, source, r, rfl, hrefs hr, hmeaning⟩

theorem PolicySet.references_eq (s : PolicySet) :
    s.references = PolicySet.referencesOf s.content := by
  cases s
  rw [PolicySet.references]

theorem standsIn_policySet (s : PolicySet) (source : Option (Source R))
    (outer : List (Artifact R X)) :
    StandsIn source (PolicySet.referencesOf s.content)
      (.standard (.policySet s) source :: outer) := by
  refine ⟨.policySet s, outer, rfl, fun r hr => ?_⟩
  rwa [PolicyDocument.references, PolicySet.references_eq]

section

variable (rest : List (SetMember PolicySet))

theorem PolicySet.referencesOf_subset_cons (m : SetMember PolicySet) :
    PolicySet.referencesOf rest ⊆ PolicySet.referencesOf (m :: rest) := by
  cases m <;> simp [PolicySet.referencesOf]

theorem PolicySet.referencesOf_content_subset (s : PolicySet) :
    PolicySet.referencesOf s.content ⊆ PolicySet.referencesOf (.policySet s :: rest) := by
  simp [PolicySet.referencesOf, PolicySet.references_eq]

theorem PolicySet.mem_referencesOf (kind : ArtifactKind) (r : IdReference) :
    ⟨kind, r⟩ ∈ PolicySet.referencesOf (.reference kind r :: rest) := by
  simp [PolicySet.referencesOf]

end

/-- A task between artifacts of a path. -/
def Task.OnPath (answers : Answers R X) (root : Artifact R X) (outer : List (Artifact R X)) :
    Task R X → Prop
  | .artifact b => ReferencePath answers root (b :: outer)
  | .set source s => StandsIn source (PolicySet.referencesOf s.content) outer
  | .members p => StandsIn p.source (PolicySet.referencesOf p.rest) outer
  | .policy _ | .decided _ | .failed _ => True

def OnPath (answers : Answers R X) (root : Artifact R X) : List (Pending R X) → Prop
  | [] => True
  | .within a :: rest => ReferencePath answers root (a :: enclosing rest) ∧ OnPath answers root rest
  | .member p :: rest =>
    StandsIn p.source (PolicySet.referencesOf p.rest) (enclosing rest) ∧ OnPath answers root rest

theorem OnPath.referencePath {answers : Answers R X} {root a : Artifact R X}
    {pending : List (Pending R X)} {outer : List (Artifact R X)} (h : OnPath answers root pending)
    (houter : enclosing pending = a :: outer) : ReferencePath answers root (a :: outer) := by
  induction pending with
  | nil => cases houter
  | cons p rest ih =>
    cases p with
    | within b =>
      obtain ⟨rfl, rfl⟩ := List.cons.inj houter
      exact h.1
    | member p => exact ih h.2 houter

/-- What is done next and what is pending lie on paths of references. -/
structure Moment.OnPath (answers : Answers R X) (root : Artifact R X) (m : Moment R X σ) : Prop where
  task : m.task.OnPath answers root (enclosing m.pending)
  pending : AccessPolicy.OnPath answers root m.pending

theorem onPath_after {answers : Answers R X} {root : Artifact R X} {pending : List (Pending R X)}
    {next : α → Task R X × List (Pending R X)}
    (hpending : OnPath answers root pending)
    {r : EStateM.Result EvaluationError (Evaluation R X σ) α}
    (hnext : ∀ a s, r = .ok a s → (next a).1.OnPath answers root (enclosing (next a).2) ∧
      OnPath answers root (next a).2) : (after pending next r).OnPath answers root := by
  cases r with
  | ok a s => exact ⟨(hnext a s rfl).1, (hnext a s rfl).2⟩
  | error e s => exact ⟨trivial, hpending⟩

theorem onPath_settle {answers : Answers R X} {root : Artifact R X} {pending : List (Pending R X)}
    (hpending : OnPath answers root pending)
    (r : EStateM.Result EvaluationError (Evaluation R X σ) Decision) :
    (settle pending r).OnPath answers root :=
  onPath_after hpending fun _ _ _ => ⟨trivial, hpending⟩

theorem onPath_stepInto {answers : Answers R X} {root : Artifact R X} {d : PolicyDocument}
    {source : Option (Source R)} {pending : List (Pending R X)} {s : Evaluation R X σ}
    (hpath : ReferencePath answers root (.standard d source :: enclosing pending))
    (hpending : OnPath answers root pending) :
    (stepInto d source pending s).OnPath answers root := by
  simp only [stepInto]
  cases s.chain.enter (Artifact.standard (X := X) d source).key with
  | error e => exact ⟨trivial, hpending⟩
  | ok chain =>
    cases d with
    | policy p => exact ⟨trivial, hpath, hpending⟩
    | policySet t => exact ⟨standsIn_policySet t source _, hpath, hpending⟩

variable [DecidableEq R] {sur : Surroundings R X σ} {ev : Evaluator σ} {answers : Answers R X}
  {root : Artifact R X}

/-- Turning to a member stays on paths: a reference is followed to what it means. -/
theorem onPath_stepMember (hgive : sur.Give answers) {p : Progress R} {m : SetMember PolicySet}
    {pending : List (Pending R X)} {s : Evaluation R X σ} (hs : s.world.Faithful answers)
    (hstands : StandsIn p.source (PolicySet.referencesOf (m :: p.rest)) (enclosing pending))
    (hpending : OnPath answers root pending) :
    (stepMember sur p pending s m).OnPath answers root := by
  have hrest := hstands.mono (PolicySet.referencesOf_subset_cons p.rest m)
  cases m with
  | policy q => exact ⟨trivial, hrest, hpending⟩
  | policySet t =>
    exact ⟨hstands.mono (PolicySet.referencesOf_content_subset p.rest t), hrest, hpending⟩
  | reference kind r =>
    refine onPath_after hpending fun a t hrun => ⟨?_, hrest, hpending⟩
    obtain ⟨w, -, -, hresolve⟩ := resolve_eq_meaning hgive hs p.source ⟨kind, r⟩
    have hmeaning : answers.meaning p.source ⟨kind, r⟩ = .ok a := by
      simp only [act, hresolve] at hrun
      cases hm : answers.meaning p.source ⟨kind, r⟩ <;> simp [hm, outcomeIn] at hrun
      rw [hrun.1]
    have hpath : ReferencePath answers root (enclosing pending) := by
      obtain ⟨d, outer, houter, -⟩ := hstands
      rw [houter]
      exact hpending.referencePath houter
    exact hstands.refers hpath (PolicySet.mem_referencesOf p.rest kind r) hmeaning
  | parameters _ => exact ⟨hrest, hpending⟩
  | policyParameters _ => exact ⟨hrest, hpending⟩
  | setParameters _ => exact ⟨hrest, hpending⟩

theorem onPath_of_step (hgive : sur.Give answers) {m n : Moment R X σ}
    (hm : m.OnPath answers root) (hworld : m.state.world.Faithful answers)
    (h : step sur ev m = some n) : n.OnPath answers root := by
  obtain ⟨task, pending, s⟩ := m
  obtain ⟨htask, hpending⟩ := hm
  cases task with
  | artifact a =>
    cases a with
    | external d x => cases h; exact onPath_settle hpending _
    | standard d source => cases h; exact onPath_stepInto htask hpending
  | policy p => cases h; exact onPath_settle hpending _
  | set source t =>
    cases h
    refine onPath_after hpending fun applies _ _ => ?_
    cases applies with
    | false => exact ⟨trivial, hpending⟩
    | true => exact ⟨htask, hpending⟩
  | members p =>
    obtain ⟨source, algorithm, decisions, _ | ⟨m, rest⟩⟩ := p
    · cases h; exact onPath_settle hpending _
    · cases h; exact onPath_stepMember hgive hworld htask hpending
  | decided d =>
    obtain _ | ⟨_ | p, rest⟩ := pending <;> cases h
    · exact ⟨trivial, hpending.2⟩
    · exact ⟨hpending.1, hpending.2⟩
  | failed e =>
    obtain _ | ⟨_ | p, rest⟩ := pending <;> cases h
    · exact ⟨trivial, hpending.2⟩
    · exact ⟨trivial, hpending.2⟩

/-- At every moment of evaluating the root, what is done lies on a path of references from it. -/
theorem Reaches.onPath (hgive : sur.Give answers) {s : Evaluation R X σ}
    (hs : s.world.Faithful answers) {m : Moment R X σ} (h : Reaches sur ev (start root s) m) :
    m.OnPath answers root := by
  induction h with
  | refl => exact ⟨.root, trivial⟩
  | tail hreach hstep ih => exact onPath_of_step hgive ih (Reaches.faithful hgive hreach hs) hstep

end AccessPolicy
