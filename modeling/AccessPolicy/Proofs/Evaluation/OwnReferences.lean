import AccessPolicy.Proofs.Evaluation.Visits

namespace AccessPolicy

open Evaluation Moment

variable {R X σ : Type}

/-- References that stand in the artifact that is evaluated, or nothing further inside. -/
def outermost (outer : List (Artifact R X)) (rs : List Reference) : List Reference :=
  if outer.length = 1 then rs else []

theorem outermost_append (outer : List (Artifact R X)) (qs rs : List Reference) :
    outermost outer (qs ++ rs) = outermost outer qs ++ outermost outer rs := by
  unfold outermost
  split <;> rfl

theorem outermost_cons (outer : List (Artifact R X)) (r : Reference) (rs : List Reference) :
    outermost outer (r :: rs) =
      (if outer.length = 1 then some r else none).toList ++ outermost outer rs := by
  unfold outermost
  split <;> rfl

theorem outermost_nil (outer : List (Artifact R X)) : outermost outer [] = [] :=
  ite_self []

/-- The references of the outermost artifact that a task can come to. -/
def Task.ahead (outer : List (Artifact R X)) : Task R X → List Reference
  | .artifact (.standard d _) => if outer.length = 0 then d.references else []
  | .artifact (.external _ _) => []
  | .set _ s => outermost outer (PolicySet.referencesOf s.content)
  | .members p => outermost outer (PolicySet.referencesOf p.rest)
  | .policy _ | .decided _ | .failed _ => []

theorem Task.ahead_artifact_of_inside {outer : List (Artifact R X)} (h : outer ≠ [])
    (a : Artifact R X) : (Task.artifact a).ahead outer = [] := by
  cases a with
  | external d x => rfl
  | standard d source => exact if_neg fun hlength => h (List.length_eq_zero_iff.1 hlength)

def ahead : List (Pending R X) → List Reference
  | [] => []
  | .within _ :: rest => ahead rest
  | .member p :: rest => outermost (enclosing rest) (PolicySet.referencesOf p.rest) ++ ahead rest

namespace Moment

/-- The references of the outermost artifact that can still be turned to, in order. -/
def ahead (m : Moment R X σ) : List Reference :=
  m.task.ahead (enclosing m.pending) ++ AccessPolicy.ahead m.pending

/-- The reference that is turned to, if it stands in the outermost artifact. -/
def ownReference? (m : Moment R X σ) : Option Reference :=
  if (enclosing m.pending).length = 1 then m.task.reference?.map Prod.snd else none

/-- If a target in the outermost artifact is asked for, it applies. -/
def TargetApplies (ev : Evaluator σ) (m : Moment R X σ) : Prop :=
  ∀ source s, m.task = .set source s → (enclosing m.pending).length = 1 →
    ∃ outside, ev.applies s.target m.state.world.outside = .ok true outside

/-- Nothing is ahead at the next moment that was not ahead before, but for a reference that has been
turned to; and unless something fails or a target does not apply, the rest is. -/
def Advances (ev : Evaluator σ) (m n : Moment R X σ) : Prop :=
  ∃ dropped, m.ahead = m.ownReference?.toList ++ dropped ++ n.ahead ∧
    ((∀ e, n.task ≠ .failed e) → m.TargetApplies ev → dropped = [])

variable {ev : Evaluator σ} {m n : Moment R X σ}

theorem ownReference?_of_none (h : m.task.reference? = none) : m.ownReference? = none := by
  rw [ownReference?, h]
  exact ite_self none

/-- No reference is turned to, and all that was ahead still is. -/
theorem Advances.stays (hreference : m.task.reference? = none) (h : m.ahead = n.ahead) :
    Advances ev m n :=
  ⟨[], by rw [ownReference?_of_none hreference, h]; rfl, fun _ _ => rfl⟩

/-- No reference is turned to, and what is left out is left out for a reason. -/
theorem Advances.drops {dropped : List Reference} (hreference : m.task.reference? = none)
    (h : m.ahead = dropped ++ n.ahead)
    (hdropped : (∀ e, n.task ≠ .failed e) → m.TargetApplies ev → dropped = []) :
    Advances ev m n :=
  ⟨dropped, by rw [ownReference?_of_none hreference, h]; rfl, hdropped⟩

end Moment

theorem ahead_settle (pending : List (Pending R X))
    (r : EStateM.Result EvaluationError (Evaluation R X σ) Decision) :
    (settle pending r).ahead = ahead pending := by
  cases r <;> rfl

section

variable {ev : Evaluator σ}

theorem advances_stepInto (d : PolicyDocument) (source : Option (Source R))
    (pending : List (Pending R X)) (s : Evaluation R X σ) :
    Advances ev ⟨.artifact (.standard d source), pending, s⟩ (stepInto d source pending s) := by
  simp only [stepInto]
  cases s.chain.enter (Artifact.standard (X := X) d source).key with
  | error e => exact .drops rfl rfl fun hok => absurd rfl (hok _)
  | ok chain =>
    cases d with
    | policy p => exact .stays rfl (congrArg (· ++ ahead pending) (ite_self []))
    | policySet t =>
      refine .stays rfl (congrArg (· ++ ahead pending) ?_)
      simp only [Task.ahead, outermost, enclosing, List.length_cons, Nat.add_eq_right,
        PolicyDocument.references, PolicySet.references_eq]

variable [DecidableEq R] {sur : Surroundings R X σ}

theorem advances_set {source : Option (Source R)} {t : PolicySet} {pending : List (Pending R X)}
    {s : Evaluation R X σ} {n : Moment R X σ}
    (h : step sur ev ⟨.set source t, pending, s⟩ = some n) :
    Advances ev ⟨.set source t, pending, s⟩ n := by
  cases h
  simp only [ask, act, World.ask]
  cases happlies : ev.applies t.target s.world.outside with
  | error e outside => exact .drops rfl rfl fun hok => absurd rfl (hok _)
  | ok applies outside =>
    cases applies with
    | true => exact .stays rfl rfl
    | false =>
      refine .drops rfl rfl fun _ htarget => ?_
      by_cases houter : (enclosing pending).length = 1
      · obtain ⟨o, hanswer⟩ := htarget source t rfl houter
        cases happlies.symm.trans hanswer
      · exact if_neg houter

theorem advances_stepMember (p : Progress R) (x : SetMember PolicySet)
    (pending : List (Pending R X)) (s : Evaluation R X σ) (hinside : enclosing pending ≠ []) :
    Advances ev ⟨.members ⟨p.source, p.algorithm, p.decisions, x :: p.rest⟩, pending, s⟩
      (stepMember sur p pending s x) := by
  cases x with
  | policy q => exact .stays rfl rfl
  | policySet t =>
    refine .stays rfl ?_
    calc outermost (enclosing pending) (PolicySet.referencesOf (.policySet t :: p.rest)) ++
          ahead pending
        = outermost (enclosing pending) (PolicySet.referencesOf t.content) ++
            outermost (enclosing pending) (PolicySet.referencesOf p.rest) ++ ahead pending := by
          rw [PolicySet.referencesOf, PolicySet.references_eq, outermost_append]
      _ = outermost (enclosing pending) (PolicySet.referencesOf t.content) ++
            ahead (.member p :: pending) := List.append_assoc _ _ _
  | reference kind r =>
    have hahead : outermost (enclosing pending) (PolicySet.referencesOf (.reference kind r :: p.rest))
          ++ ahead pending =
        (if (enclosing pending).length = 1 then some ⟨kind, r⟩ else none).toList ++
          ahead (.member p :: pending) := by
      rw [PolicySet.referencesOf, outermost_cons, List.append_assoc]
      rfl
    simp only [stepMember, act]
    cases resolve sur p.source ⟨kind, r⟩ s.world with
    | ok a w =>
      have hnone : Task.ahead (enclosing pending) (.artifact a) = [] :=
        Task.ahead_artifact_of_inside hinside a
      refine ⟨[], ?_, fun _ _ => rfl⟩
      rw [List.append_nil]
      exact hahead.trans (congrArg (_ ++ ·) (congrArg (· ++ _) hnone).symm)
    | error e w =>
      refine ⟨outermost (enclosing pending) (PolicySet.referencesOf p.rest), ?_,
        fun hok => absurd rfl (hok _)⟩
      rw [List.append_assoc]
      exact hahead
  | _ => exact .stays rfl rfl

omit [DecidableEq R] in
theorem Moment.Placed.inside {p : Progress R} {pending : List (Pending R X)}
    {s : Evaluation R X σ} (h : Moment.Placed ⟨.members p, pending, s⟩) :
    enclosing pending ≠ [] := by
  obtain ⟨d, outer, houter, -⟩ := h.task
  rw [houter]
  exact List.cons_ne_nil _ _

theorem advances_of_step {m n : Moment R X σ} (hm : m.Placed) (h : step sur ev m = some n) :
    Advances ev m n := by
  obtain ⟨task, pending, s⟩ := m
  cases task with
  | artifact a =>
    cases a with
    | external d x => cases h; exact .stays rfl (ahead_settle pending _).symm
    | standard d source => cases h; exact advances_stepInto d source pending s
  | policy p => cases h; exact .stays rfl (ahead_settle pending _).symm
  | set source t => exact advances_set h
  | members p =>
    obtain ⟨source, algorithm, decisions, _ | ⟨x, rest⟩⟩ := p
    · cases h
      refine .stays rfl ?_
      calc outermost (enclosing pending) [] ++ ahead pending
          = ahead pending := by rw [outermost_nil, List.nil_append]
        _ = _ := (ahead_settle pending _).symm
    · cases h
      exact advances_stepMember ⟨source, algorithm, decisions, rest⟩ x pending s hm.inside
  | decided d =>
    obtain _ | ⟨_ | p, rest⟩ := pending <;> cases h <;> exact .stays rfl rfl
  | failed e =>
    obtain _ | ⟨_ | p, rest⟩ := pending <;> cases h
    · exact .stays rfl rfl
    · exact .drops rfl rfl fun hok => absurd rfl (hok e)

end

variable [DecidableEq R] {sur : Surroundings R X σ} {ev : Evaluator σ}

/-- A failure is not overcome. -/
theorem Run.failed {m last : Moment R X σ} {ms : List (Moment R X σ)} {e : EvaluationError}
    (h : Run sur ev m ms last) (hm : m.task = .failed e) : last.task = .failed e := by
  induction h with
  | refl => exact hm
  | @head m n _ _ hstep _ ih =>
    refine ih ?_
    obtain ⟨task, pending, s⟩ := m
    obtain rfl : task = .failed e := hm
    obtain _ | ⟨_ | _, pending⟩ := pending <;> cases hstep <;> rfl

/-- Along a run the references of the outermost artifact are turned to in the order in which they
were ahead. -/
theorem Run.sublist_ahead {m last : Moment R X σ} {ms : List (Moment R X σ)}
    (h : Run sur ev m ms last) (hm : m.Placed) :
    (ms.filterMap ownReference? ++ last.ahead).Sublist m.ahead ∧
    ((∀ n ∈ ms, n.TargetApplies ev) → (∀ e, last.task ≠ .failed e) →
      ms.filterMap ownReference? ++ last.ahead = m.ahead) := by
  induction h with
  | refl => exact ⟨List.Sublist.refl _, fun _ _ => rfl⟩
  | @head m n last ms hstep hrest ih =>
    obtain ⟨hsublist, hall⟩ := ih (hm.step hstep)
    obtain ⟨dropped, hahead, hdropped⟩ := advances_of_step hm hstep
    have hfirst : (m :: ms).filterMap ownReference? =
        m.ownReference?.toList ++ ms.filterMap ownReference? := by
      cases hown : m.ownReference? with
      | none => rw [List.filterMap_cons_none hown]; rfl
      | some r => rw [List.filterMap_cons_some hown]; rfl
    rw [hahead, hfirst, List.append_assoc, List.append_assoc]
    refine ⟨(hsublist.trans (List.sublist_append_right dropped _)).append_left _, ?_⟩
    intro happlies hok
    obtain ⟨hfirst, hlater⟩ := List.forall_mem_cons.1 happlies
    have hn : ∀ e, n.task ≠ .failed e := fun e he => hok e (hrest.failed he)
    rw [hdropped hn hfirst, List.nil_append, hall hlater hok]

/-- The references of an artifact that its evaluation turns to are those of its document, in order;
and where every target applies that is asked for in the document and there is a decision, they are
all of them. -/
theorem ownReferences_evaluateIn {d : PolicyDocument} {source : Option (Source R)}
    {s : Evaluation R X σ} {ms : List (Moment R X σ)}
    (h : Run sur ev (start (.standard d source) s) ms
      (settle [] (evaluateIn sur ev (.standard d source) s))) :
    (ms.filterMap ownReference?).Sublist d.references ∧
    ((∀ m ∈ ms, m.TargetApplies ev) →
      ∀ decision t, evaluateIn sur ev (.standard d source) s = .ok decision t →
        ms.filterMap ownReference? = d.references) := by
  have hahead : (start (.standard d source) s : Moment R X σ).ahead = d.references :=
    List.append_nil _
  obtain ⟨hsublist, hall⟩ := h.sublist_ahead (placed_start _ _)
  rw [hahead, ahead_settle, ahead, List.append_nil] at hsublist hall
  refine ⟨hsublist, fun happlies decision t hdecided => hall happlies fun e he => ?_⟩
  rw [hdecided] at he
  cases he

end AccessPolicy
