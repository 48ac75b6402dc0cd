import AccessPolicy.Proofs.Construction.Resolving
import AccessPolicy.Proofs.Evaluation.Trace
import AccessPolicy.Proofs.Evaluation.Unwinding
import AccessPolicy.Proofs.Journal
import AccessPolicy.Proofs.Resolution.Fetching

namespace AccessPolicy

section

variable {R X σ : Type}

/-- The evaluator that notes each call with its answer. -/
def Evaluator.recorded (ev : Evaluator σ) : Evaluator (Journal (Event R X) σ) where
  applies target := Journal.noting (.applies target) (ev.applies target)
  policy p := Journal.noting (.policy p) (ev.policy p)
  combine algorithm ds := Journal.noting (.combine algorithm ds) (ev.combine algorithm ds)

/-- Resolvers that note each call with its answer. What artifacts from elsewhere do with the
evaluator is not noted call by call. -/
def Surroundings.recorded (sur : Surroundings R X σ) (ev : Evaluator σ) :
    Surroundings R X (Journal (Event R X) σ) where
  lookUp resolver id pattern :=
    Journal.noting (.lookUp resolver id pattern) (sur.lookUp resolver id pattern)
  decide x d _ := Journal.noting (.foreign x d) (sur.decide x d ev)

def World.memory (w : World R X σ) : Memory R X :=
  w.map fun _ => ()

/-- The evaluation with a journal that holds the events. -/
def Evaluation.journaled (events : List E) (s : Evaluation R X σ) : Evaluation R X (Journal E σ) :=
  ⟨s.chain, s.world.journaled events⟩

end

/-- What the calls and the result of a computation can be, from what is remembered to what is
remembered afterwards. -/
abbrev Course (R X α : Type) :=
  Memory R X → List (Event R X) → Except EvaluationError α → Memory R X → Prop

/-- Inside the artifacts on the chain, `x` does what `y` does and notes calls that are a course. -/
def Records {R X σ : Type} (c : EvaluationChain)
    (x : EStateM EvaluationError (Evaluation R X (Journal (Event R X) σ)) α)
    (y : EStateM EvaluationError (Evaluation R X σ) α) (course : Course R X α) : Prop :=
  ∀ s, s.chain = c → (endState (y s)).chain = c ∧
    ∃ events, course s.world.memory events (answerOf (y s)) (endState (y s)).world.memory ∧
      ∀ before, x (s.journaled before) = mapEnd (Evaluation.journaled (before ++ events)) (y s)

namespace Records

open Evaluation

variable {R X σ : Type} {c : EvaluationChain}

theorem mono {x : EStateM EvaluationError (Evaluation R X (Journal (Event R X) σ)) α}
    {y : EStateM EvaluationError (Evaluation R X σ) α} {course course' : Course R X α}
    (h : Records c x y course)
    (himp : ∀ {m events answer m'}, course m events answer m' → course' m events answer m') :
    Records c x y course' := by
  intro s hs
  obtain ⟨hchain, events, hcourse, hrun⟩ := h s hs
  exact ⟨hchain, events, himp hcourse, hrun⟩

/-- One computation, and if it succeeds another. -/
inductive AndThen (first : Course R X α) (next : α → Course R X β) : Course R X β
  | stops {m m' : Memory R X} {events : List (Event R X)} {e : EvaluationError}
      (h : first m events (.error e) m') : AndThen first next m events (.error e) m'
  | goesOn {m m' m'' : Memory R X} {events later : List (Event R X)} {a : α}
      {answer : Except EvaluationError β} (h : first m events (.ok a) m')
      (hnext : next a m' later answer m'') : AndThen first next m (events ++ later) answer m''

theorem pure (a : α) :
    Records (σ := σ) c (Pure.pure a) (Pure.pure a)
      (fun (m : Memory R X) events answer m' => events = [] ∧ answer = .ok a ∧ m' = m) := by
  intro s hs
  exact ⟨hs, [], ⟨rfl, rfl, rfl⟩, fun before => by rw [List.append_nil]; rfl⟩

theorem bind {x : EStateM EvaluationError (Evaluation R X (Journal (Event R X) σ)) α}
    {y : EStateM EvaluationError (Evaluation R X σ) α}
    {f : α → EStateM EvaluationError (Evaluation R X (Journal (Event R X) σ)) β}
    {g : α → EStateM EvaluationError (Evaluation R X σ) β} {first : Course R X α}
    {next : α → Course R X β} (h : Records c x y first)
    (hnext : ∀ a, Records c (f a) (g a) (next a)) :
    Records c (x >>= f) (y >>= g) (AndThen first next) := by
  intro s hs
  obtain ⟨hchain, events, hcourse, hrun⟩ := h s hs
  simp only [Bind.bind, EStateM.bind, hrun]
  cases hy : y s with
  | error e t =>
    rw [hy] at hchain hcourse
    exact ⟨hchain, events, .stops hcourse, fun _ => rfl⟩
  | ok a t =>
    rw [hy] at hchain hcourse
    obtain ⟨hchain', later, hcourse', hrun'⟩ := hnext a t hchain
    refine ⟨hchain', events ++ later, .goesOn hcourse hcourse', fun before => ?_⟩
    rw [← List.append_assoc]
    exact hrun' _

theorem ite {b : Bool} {x x' : EStateM EvaluationError (Evaluation R X (Journal (Event R X) σ)) α}
    {y y' : EStateM EvaluationError (Evaluation R X σ) α} {course course' : Course R X α}
    (h : Records c x y course) (h' : Records c x' y' course') :
    Records c (if b then x else x') (if b then y else y')
      (fun m events answer m' =>
        if b then course m events answer m' else course' m events answer m') := by
  cases b
  · exact h'
  · exact h

/-- A computation that is asked for outside is one call. -/
theorem ask (event : Except EvaluationError α → Event R X) (x : EStateM EvaluationError σ α) :
    Records c (Evaluation.ask (Journal.noting event x)) (Evaluation.ask x)
      (fun (m : Memory R X) events answer m' => events = [event answer] ∧ m' = m) := by
  intro s hs
  have hchain : (endState (Evaluation.ask (R := R) (X := X) x s)).chain = s.chain :=
    keepsChain_ask x s
  have hanswer : answerOf (Evaluation.ask x s) = answerOf (x s.world.outside) := by
    simp only [Evaluation.ask, act, World.ask]
    cases x s.world.outside <;> rfl
  have hmemory : (endState (Evaluation.ask x s)).world.memory = s.world.memory := by
    simp only [Evaluation.ask, act, World.ask]
    cases x s.world.outside <;> rfl
  refine ⟨hchain.trans hs, [event (answerOf (x s.world.outside))], ⟨by rw [hanswer], hmemory⟩,
    fun before => ?_⟩
  simp only [Evaluation.ask, act, World.ask, Evaluation.journaled, World.journaled, World.map,
    Journal.noting]
  cases x s.world.outside <;> rfl

/-- Entering and leaving an artifact makes no call. -/
theorem within {k : ArtifactKey}
    {x : EStateM EvaluationError (Evaluation R X (Journal (Event R X) σ)) α}
    {y : EStateM EvaluationError (Evaluation R X σ) α} {course : Course R X α}
    (hrefused : ∀ e m, c.enter k = .error e → course m [] (.error (.resolution e)) m)
    (h : ∀ inner, c.enter k = .ok inner → Records inner x y course) :
    Records c (within k x) (within k y) course := by
  intro s hs
  obtain rfl := hs
  have henters (before : List (Event R X)) : (s.journaled before).chain = s.chain := rfl
  simp only [Evaluation.within, henters]
  cases henter : s.chain.enter k with
  | error e =>
    exact ⟨rfl, [], hrefused e _ henter, fun before => by rw [List.append_nil]; rfl⟩
  | ok inner =>
    obtain ⟨hchain, events, hcourse, hrun⟩ := h inner henter { s with chain := inner } rfl
    have hleave := EvaluationChain.leave_of_enter henter
    have hrun' (before : List (Event R X)) : x { s.journaled before with chain := inner } = _ :=
      hrun before
    dsimp only
    simp only [hrun']
    have hback {t : Evaluation R X σ} (ht : t.chain = inner) : t.chain.leave = s.chain :=
      (congrArg _ ht).trans hleave
    cases hy : y { s with chain := inner } <;> rw [hy] at hchain hcourse <;>
      exact ⟨hback hchain, events, hcourse, fun _ => rfl⟩

end Records

section

open Evaluation

variable {R X σ : Type} [DecidableEq R] {sur : Surroundings R X σ} {ev : Evaluator σ}
  {c : EvaluationChain}

/-- The call by which a reference is looked up, if there is a resolver and the version that the
reference states is one. -/
def lookUps (sur : Surroundings R X σ) (source : Option (Source R)) (r : Reference) (outside : σ) :
    List (Event R X) :=
  match source, r.target.pattern with
  | some s, .ok pattern =>
    [.lookUp s.resolver r.target.value pattern
      (answerOf (sur.lookUp s.resolver r.target.value pattern outside))]
  | _, _ => []

/-- The calls that are made to resolve a reference: none for one that is known. -/
def callsFor (sur : Surroundings R X σ) (source : Option (Source R)) (r : Reference)
    (w : World R X σ) : List (Event R X) :=
  match w.known? source r.key with
  | some _ => []
  | none => lookUps sur source r w.outside

theorem callsFor_of_no_source (sur : Surroundings R X σ) (r : Reference) (w : World R X σ) :
    callsFor sur none r w = [] :=
  rfl

theorem resolve_recorded (sur : Surroundings R X σ) (ev : Evaluator σ) (source : Option (Source R))
    (r : Reference) (w : World R X σ) :
    Resolves source r w.memory (callsFor sur source r w) (answerOf (resolve sur source r w))
        (endState (resolve sur source r w)).memory ∧
      ∀ before, resolve (sur.recorded ev) source r (w.journaled before) =
        mapEnd (World.journaled (before ++ callsFor sur source r w)) (resolve sur source r w) := by
  obtain _ | s := source
  · simp only [callsFor_of_no_source, List.append_nil]
    exact ⟨.noResolver, fun before => rfl⟩
  have hmemory (before : List (Event R X)) :
      (w.journaled before).remembered? s r.key = w.remembered? s r.key := rfl
  simp only [resolve, callsFor, World.known?_some, hmemory]
  cases hremembered : w.remembered? s r.key with
  | some a => exact ⟨.remembered hremembered, fun before => by rw [List.append_nil]; rfl⟩
  | none =>
    simp only [lookUps]
    cases hpattern : r.target.pattern with
    | error e =>
      exact ⟨.invalidVersion hremembered hpattern, fun before => by rw [List.append_nil]; rfl⟩
    | ok pattern =>
      simp only [World.ask, World.journaled, World.map, Surroundings.recorded, Journal.noting]
      cases sur.lookUp s.resolver r.target.value pattern w.outside with
      | error e outside => exact ⟨.failed hremembered hpattern, fun before => rfl⟩
      | ok a outside =>
        simp only [mapEnd, answerOf]
        by_cases hkind : a.kind = r.kind
        · simp only [if_pos hkind]
          exact ⟨.found hremembered hpattern hkind, fun before => rfl⟩
        · simp only [if_neg hkind]
          exact ⟨.wrongKind hremembered hpattern hkind, fun before => rfl⟩

theorem Records.resolve (source : Option (Source R)) (r : Reference) :
    Records c (act .resolution (AccessPolicy.resolve (sur.recorded ev) source r))
      (act .resolution (AccessPolicy.resolve sur source r))
      (fun m events answer m' => ∃ result, Resolves source r m events result m' ∧
        answer = result.mapError .resolution) := by
  intro s hs
  obtain ⟨hresolves, hrun⟩ := resolve_recorded sur ev source r s.world
  have hworld (before : List (Event R X)) : (s.journaled before).world = s.world.journaled before :=
    rfl
  simp only [act, hworld, hrun]
  cases hy : AccessPolicy.resolve sur source r s.world <;> rw [hy] at hresolves <;>
    exact ⟨hs, _, ⟨_, hresolves, rfl⟩, fun _ => rfl⟩

/-- The course of a part that makes one decision. -/
def Part.course (c : EvaluationChain) (part : Part R X) : Course R X Decision :=
  fun m events answer m' => Proceeds c part m events (answer.map fun d => [d]) m'

section

variable {source : Option (Source R)}
  {visit : Artifact R X → EStateM EvaluationError (Evaluation R X (Journal (Event R X) σ)) Decision}
  {visit' : Artifact R X → EStateM EvaluationError (Evaluation R X σ) Decision}

/-- A member that makes a decision, and those after it. -/
theorem Records.next {member : SetMember PolicySet} {rest : List (SetMember PolicySet)}
    {x : EStateM EvaluationError (Evaluation R X (Journal (Event R X) σ)) Decision}
    {y : EStateM EvaluationError (Evaluation R X σ) Decision}
    {xs : EStateM EvaluationError (Evaluation R X (Journal (Event R X) σ)) (List Decision)}
    {ys : EStateM EvaluationError (Evaluation R X σ) (List Decision)}
    (hmember : Records c x y (Part.course c (.member source member)))
    (hrest : Records c xs ys (Proceeds c (.members source rest))) :
    Records c (do let d ← x; let ds ← xs; return d :: ds)
      (do let d ← y; let ds ← ys; return d :: ds)
      (Proceeds c (.members source (member :: rest))) := by
  refine (hmember.bind fun d => hrest.bind fun ds => Records.pure (d :: ds)).mono fun h => ?_
  cases h with
  | stops hfails => exact .memberFails hfails
  | goesOn hfirst hnext =>
    cases hnext with
    | stops hfails => exact .cons hfirst hfails
    | goesOn hlater hlast =>
      obtain ⟨rfl, rfl, rfl⟩ := hlast
      rw [List.append_nil]
      exact .cons hfirst hlater

/-- A reference is resolved, and what it means is evaluated. -/
theorem Records.reference (sur : Surroundings R X σ) (ev : Evaluator σ)
    (hvisit : ∀ a, Records c (visit a) (visit' a) (Part.course c (.artifact a)))
    (kind : ArtifactKind) (r : IdReference) :
    Records c (act .resolution (AccessPolicy.resolve (sur.recorded ev) source ⟨kind, r⟩) >>= visit)
      (act .resolution (AccessPolicy.resolve sur source ⟨kind, r⟩) >>= visit')
      (Part.course c (.member source (.reference kind r))) := by
  refine ((Records.resolve source ⟨kind, r⟩).bind hvisit).mono fun h => ?_
  cases h with
  | stops h =>
    obtain ⟨_ | _, hresolves, hresult⟩ := h <;> cases hresult
    exact .unresolved hresolves
  | goesOn h hnext =>
    obtain ⟨_ | _, hresolves, hresult⟩ := h <;> cases hresult
    exact .reference hresolves hnext

/-- Parameters, and the members after them. -/
theorem Records.skip {member : SetMember PolicySet} {rest : List (SetMember PolicySet)}
    {xs : EStateM EvaluationError (Evaluation R X (Journal (Event R X) σ)) (List Decision)}
    {ys : EStateM EvaluationError (Evaluation R X σ) (List Decision)}
    (hmember : member.decides = false)
    (hrest : Records c xs ys (Proceeds c (.members source rest))) :
    Records c xs ys (Proceeds c (.members source (member :: rest))) := by
  refine hrest.mono fun {m events answer m'} h => ?_
  have hlater := Proceeds.cons (.parameters hmember) h
  cases answer <;> exact hlater

mutual

theorem Records.set (hvisit : ∀ a, Records c (visit a) (visit' a) (Part.course c (.artifact a))) :
    (s : PolicySet) → Records c (evaluateSet (sur.recorded ev) ev.recorded source visit s)
      (evaluateSet sur ev source visit' s) (Part.course c (.set source s))
  | ⟨id, version, algorithm, description, defaults, target, content, obligations⟩ => by
    rw [evaluateSet, evaluateSet]
    have hcombine := (Records.members hvisit content).bind fun ds =>
      Records.ask (.combine algorithm ds) (ev.combine algorithm ds)
    refine ((Records.ask (.applies target) (ev.applies target)).bind fun applies =>
      hcombine.ite (.pure _)).mono fun h => ?_
    cases h with
    | stops h =>
      obtain ⟨rfl, rfl⟩ := h
      exact .targetFails
    | @goesOn _ _ _ _ _ applies _ h hnext =>
      obtain ⟨rfl, rfl⟩ := h
      cases applies with
      | false =>
        obtain ⟨rfl, rfl, rfl⟩ := hnext
        exact .targetDiffers
      | true =>
        rw [if_pos rfl] at hnext
        cases hnext with
        | stops hfails => exact .membersFail hfails
        | goesOn hmembers hlast =>
          obtain ⟨rfl, rfl⟩ := hlast
          exact .combined hmembers _

theorem Records.members
    (hvisit : ∀ a, Records c (visit a) (visit' a) (Part.course c (.artifact a))) :
    (ms : List (SetMember PolicySet)) →
      Records c (evaluateMembers (sur.recorded ev) ev.recorded source visit ms)
        (evaluateMembers sur ev source visit' ms) (Proceeds c (.members source ms))
  | [] => (Records.pure []).mono fun h => by
    obtain ⟨rfl, rfl, rfl⟩ := h
    exact .nil
  | .policy p :: rest => by
    refine Records.next ((Records.ask (.policy p) (ev.policy p)).mono fun h => ?_)
      (Records.members hvisit rest)
    obtain ⟨rfl, rfl⟩ := h
    exact .policy _
  | .policySet s :: rest =>
    Records.next ((Records.set hvisit s).mono .policySet) (Records.members hvisit rest)
  | .reference kind r :: rest => by
    have hnext := Records.next (Records.reference sur ev hvisit kind r)
      (Records.members hvisit rest)
    rw [evaluateMembers, evaluateMembers]
    simpa only [bind_assoc] using hnext
  | .parameters _ :: rest => Records.skip rfl (Records.members hvisit rest)
  | .policyParameters _ :: rest => Records.skip rfl (Records.members hvisit rest)
  | .setParameters _ :: rest => Records.skip rfl (Records.members hvisit rest)

end

end

theorem Records.external (d : PolicyDocument) (x : X) :
    Records c (Evaluation.ask ((sur.recorded ev).decide x d ev.recorded))
      (Evaluation.ask (sur.decide x d ev)) (Part.course c (.artifact (.external d x))) := by
  refine (Records.ask (.foreign x d) (sur.decide x d ev)).mono fun h => ?_
  obtain ⟨rfl, rfl⟩ := h
  exact .external _

/-- The induction is on the room that the chain has. Where it has none, nothing can be entered. -/
theorem records_evaluateWithin (sur : Surroundings R X σ) (ev : Evaluator σ) {room : Nat}
    (hroom : c.room = room) (a : Artifact R X) :
    Records c (evaluateWithin (sur.recorded ev) ev.recorded room a) (evaluateWithin sur ev room a)
      (Part.course c (.artifact a)) := by
  induction room generalizing c a with
  | zero =>
    cases a with
    | external d x => exact Records.external d x
    | standard d source =>
      refine Records.within (fun _ _ henter => .refused henter) fun inner henter => ?_
      have hinner := EvaluationChain.room_of_enter henter
      omega
  | succ room ih =>
    cases a with
    | external d x => exact Records.external d x
    | standard d source =>
      refine Records.within (fun _ _ henter => .refused henter) fun inner henter => ?_
      cases d with
      | policy p =>
        refine (Records.ask (.policy p) (ev.policy p)).mono fun h => ?_
        obtain ⟨rfl, rfl⟩ := h
        exact .standardPolicy henter _
      | policySet s =>
        have hinner : inner.room = room := by
          have := EvaluationChain.room_of_enter henter
          omega
        exact (Records.set (ih hinner) s).mono (.standardSet henter)

/-- Recording the calls of an evaluation makes no difference to it, and the calls are those of an
evaluation that proceeds in order: a set asks first whether its target applies, then goes through
its members in document order, resolves a reference just before what it means is evaluated, by the
resolver of the artifact that the set belongs to, and combines last. A call that fails is the last
one and its error is the result. The decisions that are combined are one for each member that is not
a parameter, and the resolver of an artifact is the one that it was constructed with. An artifact
that is evaluated by itself is evaluated on the empty chain. -/
theorem evaluateIn_proceeds (sur : Surroundings R X σ) (ev : Evaluator σ) (a : Artifact R X)
    (s : Evaluation R X σ) :
    (∃ events,
      (∀ before, evaluateIn (sur.recorded ev) ev.recorded a (s.journaled before) =
        mapEnd (Evaluation.journaled (before ++ events)) (evaluateIn sur ev a s)) ∧
      Proceeds s.chain (.artifact a) s.world.memory events
        ((answerOf (evaluateIn sur ev a s)).map fun d => [d])
        (endState (evaluateIn sur ev a s)).world.memory ∧
      StopsAtFailure events (answerOf (evaluateIn sur ev a s))) ∧
    (∀ c source ms m events ds (m' : Memory R X),
      Proceeds c (.members source ms) m events (.ok ds) m' →
        ds.length = ms.countP SetMember.decides) ∧
    ∀ (k : StandardConstructor) input expected resolver (b : Artifact R X) w w',
      (k.constructResolving sur expected resolver).on input w = .ok b w' →
        ∃ document source, b = .standard document (some source) ∧ source.resolver = resolver := by
  refine ⟨?_, fun c source ms m events ds m' h => h.length_eq rfl, ?_⟩
  · obtain ⟨-, events, hproceeds, hrun⟩ :=
      records_evaluateWithin sur ev (c := s.chain) rfl a s rfl
    exact ⟨events, hrun, hproceeds, stopsAtFailure_map.1 hproceeds.stopsAtFailure⟩
  · intro k input expected resolver b w w' h
    obtain ⟨d, -, hbuild⟩ := StandardConstructor.constructResolving_eq_ok_iff.1 h
    exact ⟨d, _, (StandardConstructor.build_eq_ok_iff.1 hbuild).1, rfl⟩

end

end AccessPolicy
