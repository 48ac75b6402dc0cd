import AccessPolicy.Grammar.Build
import AccessPolicy.Proofs.Evaluation.Machine
import AccessPolicy.Proofs.Evaluation.Unwinding

namespace AccessPolicy

open Evaluation Moment

variable {R X σ : Type} [DecidableEq R] {sur : Surroundings R X σ} {ev : Evaluator σ}

/-- If a task is brought to a decision while a member is pending, then the set is gone on with. -/
theorem Reaches.member {task : Task R X} {p : Progress R} {pending : List (Pending R X)}
    {s : Evaluation R X σ} {x : EStateM EvaluationError (Evaluation R X σ) Decision}
    {next : Decision → EStateM EvaluationError (Evaluation R X σ) Decision}
    (hx : Reaches sur ev ⟨task, .member p :: pending, s⟩ (settle (.member p :: pending) (x s)))
    (hkeeps : KeepsChain x)
    (hnext : ∀ d t, t.chain = s.chain →
      Reaches sur ev ⟨.members { p with decisions := p.decisions ++ [d] }, pending, t⟩
        (settle pending (next d t))) :
    Reaches sur ev ⟨task, .member p :: pending, s⟩ (settle pending ((x >>= next) s)) := by
  have hchain := hkeeps s
  simp only [Bind.bind, EStateM.bind]
  cases hrun : x s with
  | ok d t =>
    rw [hrun] at hx hchain
    exact hx.trans ((hnext d t hchain).head rfl)
  | error e t =>
    rw [hrun] at hx
    exact hx.tail rfl

/-- What follows a computation that does not concern the chain starts on the same chain. -/
theorem Reaches.act {pending : List (Pending R X)} {next : α → Task R X × List (Pending R X)}
    {f : ε → EvaluationError} {x : EStateM ε (World R X σ) α} {s : Evaluation R X σ}
    {body : α → EStateM EvaluationError (Evaluation R X σ) Decision}
    (h : ∀ a t, t.chain = s.chain →
      Reaches sur ev ⟨(next a).1, (next a).2, t⟩ (settle pending (body a t))) :
    Reaches sur ev (after pending next (act f x s)) (settle pending ((act f x >>= body) s)) := by
  have hchain := keepsChain_act f x s
  simp only [Bind.bind, EStateM.bind]
  cases hrun : Evaluation.act f x s with
  | ok a t =>
    rw [hrun] at hchain
    exact h a t hchain
  | error e t => exact .refl

/-- If the document of an artifact that can be entered is brought to a decision, then so is the
artifact. -/
theorem Reaches.within {d : PolicyDocument} {source : Option (Source R)}
    {pending : List (Pending R X)} {s : Evaluation R X σ}
    {body : EStateM EvaluationError (Evaluation R X σ) Decision}
    (hbody : ∀ chain, s.chain.enter (Artifact.standard (X := X) d source).key = .ok chain →
      Reaches sur ev (stepInto d source pending s)
        (settle (.within (.standard d source) :: pending) (body { s with chain }))) :
    Reaches sur ev ⟨.artifact (.standard d source), pending, s⟩
      (settle pending (Evaluation.within (Artifact.standard (X := X) d source).key body s)) := by
  refine .head (b := stepInto d source pending s) rfl ?_
  simp only [Evaluation.within]
  cases henter : s.chain.enter (Artifact.standard (X := X) d source).key with
  | error e =>
    simp only [stepInto, henter]
    exact .refl
  | ok chain =>
    have hdecided := hbody chain henter
    dsimp only
    cases hrun : body { s with chain } with
    | ok a t => rw [hrun] at hdecided; exact hdecided.tail rfl
    | error e t => rw [hrun] at hdecided; exact hdecided.tail rfl

/-- Visiting keeps the chain and is what evaluating an artifact step by step comes to, on chains
with the given room. -/
structure Visits (sur : Surroundings R X σ) (ev : Evaluator σ) (room : Nat)
    (visit : Artifact R X → EStateM EvaluationError (Evaluation R X σ) Decision) : Prop where
  keepsChain : ∀ a, KeepsChain (visit a)
  reaches : ∀ a pending (s : Evaluation R X σ), s.chain.room = room →
    Reaches sur ev ⟨.artifact a, pending, s⟩ (settle pending (visit a s))

section

variable {source : Option (Source R)} {room : Nat}
  {visit : Artifact R X → EStateM EvaluationError (Evaluation R X σ) Decision}

mutual

theorem reaches_evaluateSet (hvisit : Visits sur ev room visit) (pending : List (Pending R X))
    (s : Evaluation R X σ) (hroom : s.chain.room = room) :
    (t : PolicySet) → Reaches sur ev ⟨.set source t, pending, s⟩
      (settle pending (evaluateSet sur ev source visit t s))
  | ⟨_, _, algorithm, _, _, target, content, _⟩ => by
    rw [evaluateSet]
    refine .head rfl (Reaches.act fun applies t hchain => ?_)
    cases applies with
    | false => exact .refl
    | true =>
      have hroom' : t.chain.room = room := hchain ▸ hroom
      exact reaches_evaluateMembers hvisit algorithm [] pending t hroom' content

theorem reaches_evaluateMembers (hvisit : Visits sur ev room visit) (algorithm : String)
    (ds : List Decision) (pending : List (Pending R X)) (s : Evaluation R X σ)
    (hroom : s.chain.room = room) :
    (ms : List (SetMember PolicySet)) →
      Reaches sur ev ⟨.members ⟨source, algorithm, ds, ms⟩, pending, s⟩
        (settle pending ((evaluateMembers sur ev source visit ms >>= fun es =>
          ask (ev.combine algorithm (ds ++ es))) s))
  | [] => by
    refine .single ?_
    rw [evaluateMembers, pure_bind, List.append_nil]
    rfl
  | .policy p :: rest => by
    simp only [evaluateMembers, bind_assoc, pure_bind]
    refine .head rfl (Reaches.member (.single rfl) (keepsChain_ask _) fun d t hchain => ?_)
    simpa using reaches_evaluateMembers hvisit algorithm (ds ++ [d]) pending t
      (hchain ▸ hroom) rest
  | .policySet t :: rest => by
    simp only [evaluateMembers, bind_assoc, pure_bind]
    refine .head rfl (Reaches.member (reaches_evaluateSet hvisit _ s hroom t)
      (keepsChain_evaluateSet hvisit.keepsChain t) fun d t hchain => ?_)
    simpa using reaches_evaluateMembers hvisit algorithm (ds ++ [d]) pending t
      (hchain ▸ hroom) rest
  | .reference kind r :: rest => by
    simp only [evaluateMembers, bind_assoc, pure_bind]
    refine .head rfl (Reaches.act fun a t hresolved => ?_)
    have hroom' : t.chain.room = room := hresolved ▸ hroom
    refine Reaches.member (hvisit.reaches a _ t hroom') (hvisit.keepsChain a) fun d u hchain => ?_
    simpa using reaches_evaluateMembers hvisit algorithm (ds ++ [d]) pending u
      (hchain ▸ hroom') rest
  | .parameters _ :: rest => by
    rw [evaluateMembers]
    exact .head rfl (reaches_evaluateMembers hvisit algorithm ds pending s hroom rest)
  | .policyParameters _ :: rest => by
    rw [evaluateMembers]
    exact .head rfl (reaches_evaluateMembers hvisit algorithm ds pending s hroom rest)
  | .setParameters _ :: rest => by
    rw [evaluateMembers]
    exact .head rfl (reaches_evaluateMembers hvisit algorithm ds pending s hroom rest)

end

end

theorem enter_ne_ok_of_room_eq_zero {c d : EvaluationChain} {k : ArtifactKey} (h : c.room = 0) :
    c.enter k ≠ .ok d := by
  intro henter
  rw [EvaluationChain.room_of_enter henter] at h
  exact Nat.succ_ne_zero _ h

/-- The number that bounds the recursion is the room on the chain, which every artifact that is
entered takes one of. -/
theorem visits_evaluateWithin (room : Nat) : Visits sur ev room (evaluateWithin sur ev room) := by
  refine ⟨keepsChain_evaluateWithin room, ?_⟩
  induction room with
  | zero =>
    intro a pending s hroom
    cases a with
    | external d x => exact .single rfl
    | standard d source =>
      exact Reaches.within fun chain henter => absurd henter (enter_ne_ok_of_room_eq_zero hroom)
  | succ room ih =>
    intro a pending s hroom
    cases a with
    | external d x => exact .single rfl
    | standard d source =>
      refine Reaches.within fun chain henter => ?_
      have hroom' : chain.room = room := by
        have hless := EvaluationChain.room_of_enter henter
        omega
      simp only [stepInto, henter]
      cases d with
      | policy p => exact .single rfl
      | policySet t =>
        exact reaches_evaluateSet ⟨keepsChain_evaluateWithin room, ih⟩ _ _ hroom' t

theorem reaches_evaluateIn (a : Artifact R X) (s : Evaluation R X σ) :
    Reaches sur ev (start a s) (settle [] (evaluateIn sur ev a s)) :=
  (visits_evaluateWithin s.chain.room).reaches a [] s rfl

theorem step_settle_nil (r : EStateM.Result EvaluationError (Evaluation R X σ) Decision) :
    step sur ev (settle [] r) = none := by
  cases r <;> rfl

/-- Every evaluation ends and unwinds its path. Started on a chain whose path is within the limit
and repeats no artifact, it comes from every moment to one and the same last moment, which holds
what evaluating the artifact gives; at no moment is the path over the limit or an artifact on it
twice, and in the end the chain is as it was. -/
theorem evaluateIn_ends (a : Artifact R X) {s : Evaluation R X σ} (hs : s.chain.Sound) :
    ∃ last, last = settle [] (evaluateIn sur ev a s) ∧ step sur ev last = none ∧
      (∀ m, Reaches sur ev (start a s) m → m.state.chain.Sound ∧ Reaches sur ev m last) ∧
      (endState (evaluateIn sur ev a s)).chain = s.chain := by
  have hlast : Reaches sur ev (start a s) _ := reaches_evaluateIn a s
  refine ⟨_, rfl, step_settle_nil _, fun m hm => ⟨hm.sound hs, ?_⟩, keepsChain_evaluateIn a s⟩
  exact hlast.last_of_last (step_settle_nil _) hm

/-- A set that refers to itself. -/
def loopArtifact : Artifact Unit Empty :=
  .standard (.policySet ((PolicySet.new "loop" "first").withReference .policySet
    ⟨"loop", none, none, none⟩)) (some ⟨(), 0⟩)

/-- Whatever is asked for, the answer is the set that refers to itself. -/
def loopSurroundings : Surroundings Unit Empty Unit where
  lookUp _ _ _ := pure loopArtifact
  decide x := x.elim

/-- Every target applies and nothing is ever decided. -/
def indifferent : Evaluator Unit where
  applies _ := pure true
  policy _ := pure .notApplicable
  combine _ _ := pure .notApplicable

/-- The state of an evaluation that is inside one other set. -/
def insideOuter : Evaluation Unit Empty Unit :=
  ⟨⟨[⟨.policySet, "outer", "1.0"⟩]⟩, .new ()⟩

theorem evaluateIn_ends_loop :
    ∃ last, last = settle [] (evaluateIn loopSurroundings indifferent loopArtifact insideOuter) ∧
      step loopSurroundings indifferent last = none ∧
      (∀ m, Reaches loopSurroundings indifferent (start loopArtifact insideOuter) m →
        m.state.chain.Sound ∧ Reaches loopSurroundings indifferent m last) ∧
      (endState (evaluateIn loopSurroundings indifferent loopArtifact insideOuter)).chain =
        insideOuter.chain :=
  evaluateIn_ends loopArtifact ⟨by decide, by decide⟩

end AccessPolicy
