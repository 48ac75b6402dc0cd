import AccessPolicy.Evaluation.Basic

namespace AccessPolicy

/-- A call of the evaluator or a resolver, with the answer. What an artifact from elsewhere does to
decide is its own affair and counts as one call. -/
inductive Event (R X : Type) where
  | applies (target : Option Target) (answer : Except EvaluationError Bool)
  | policy (p : Policy) (answer : Except EvaluationError Decision)
  | combine (algorithm : String) (ds : List Decision) (answer : Except EvaluationError Decision)
  | lookUp (resolver : R) (id : String) (pattern : Option VersionPattern)
      (answer : Except ResolutionError (Artifact R X))
  | foreign (x : X) (d : PolicyDocument) (answer : Except EvaluationError Decision)

/-- The error of an answer, as evaluation reports it. -/
def Event.failure? {R X : Type} : Event R X → Option EvaluationError
  | applies _ (.error e) => some e
  | policy _ (.error e) => some e
  | combine _ _ (.error e) => some e
  | lookUp _ _ _ (.error e) => some (.resolution e)
  | foreign _ _ (.error e) => some e
  | _ => none

/-- What is remembered for references, without the state outside. -/
abbrev Memory (R X : Type) :=
  World R X Unit

/-- The member makes a decision; parameters make none. -/
def SetMember.decides : SetMember σ → Bool
  | .policySet _ => true
  | .policy _ => true
  | .reference _ _ => true
  | .parameters _ => false
  | .policyParameters _ => false
  | .setParameters _ => false

/-- A part of an evaluation. The source is that of the artifact whose document it stands in. -/
inductive Part (R X : Type) where
  | artifact (a : Artifact R X)
  | set (source : Option (Source R)) (s : PolicySet)
  | members (source : Option (Source R)) (ms : List (SetMember PolicySet))
  | member (source : Option (Source R)) (m : SetMember PolicySet)

variable {R X : Type} [DecidableEq R]

/-- Resolving a reference: the calls that are made, what comes of it, and what is remembered
afterwards. The resolver of the source is asked if nothing is remembered for the reference and the
version that it states is one. -/
inductive Resolves : Option (Source R) → Reference → Memory R X → List (Event R X) →
    Except ResolutionError (Artifact R X) → Memory R X → Prop
  | noResolver {r : Reference} {m : Memory R X} :
      Resolves none r m [] (.error (.noResolver r.target.value)) m
  | remembered {s : Source R} {r : Reference} {m : Memory R X} {a : Artifact R X}
      (hremembered : m.remembered? s r.key = some a) : Resolves (some s) r m [] (.ok a) m
  | invalidVersion {s : Source R} {r : Reference} {m : Memory R X} {e : VersionError}
      (hnew : m.remembered? s r.key = none) (hpattern : r.target.pattern = .error e) :
      Resolves (some s) r m [] (.error (.invalidVersion e)) m
  | failed {s : Source R} {r : Reference} {m : Memory R X} {pattern : Option VersionPattern}
      {e : ResolutionError} (hnew : m.remembered? s r.key = none)
      (hpattern : r.target.pattern = .ok pattern) :
      Resolves (some s) r m [.lookUp s.resolver r.target.value pattern (.error e)] (.error e) m
  | wrongKind {s : Source R} {r : Reference} {m : Memory R X} {pattern : Option VersionPattern}
      {a : Artifact R X} (hnew : m.remembered? s r.key = none)
      (hpattern : r.target.pattern = .ok pattern) (hkind : a.kind ≠ r.kind) :
      Resolves (some s) r m [.lookUp s.resolver r.target.value pattern (.ok a)]
        (.error (.kindMismatch r.target.value r.kind a.kind)) m
  | found {s : Source R} {r : Reference} {m : Memory R X} {pattern : Option VersionPattern}
      {a : Artifact R X} (hnew : m.remembered? s r.key = none)
      (hpattern : r.target.pattern = .ok pattern) (hkind : a.kind = r.kind) :
      Resolves (some s) r m [.lookUp s.resolver r.target.value pattern (.ok a)] (.ok a)
        (m.remember s r.key a)

/-- Evaluating a part inside the artifacts on a chain: the calls that are made, the decisions that
come of it or the error, and what is remembered afterwards. -/
inductive Proceeds : EvaluationChain → Part R X → Memory R X → List (Event R X) →
    Except EvaluationError (List Decision) → Memory R X → Prop
  /-- The target of a set is asked for first. -/
  | targetFails {c : EvaluationChain} {source : Option (Source R)} {s : PolicySet} {m : Memory R X}
      {e : EvaluationError} :
      Proceeds c (.set source s) m [.applies s.target (.error e)] (.error e) m
  | targetDiffers {c : EvaluationChain} {source : Option (Source R)} {s : PolicySet}
      {m : Memory R X} :
      Proceeds c (.set source s) m [.applies s.target (.ok false)] (.ok [.notApplicable]) m
  | membersFail {c : EvaluationChain} {source : Option (Source R)} {s : PolicySet}
      {m m' : Memory R X} {events : List (Event R X)} {e : EvaluationError}
      (hmembers : Proceeds c (.members source s.content) m events (.error e) m') :
      Proceeds c (.set source s) m (.applies s.target (.ok true) :: events) (.error e) m'
  /-- The decisions are combined once, last. -/
  | combined {c : EvaluationChain} {source : Option (Source R)} {s : PolicySet}
      {m m' : Memory R X} {events : List (Event R X)} {ds : List Decision}
      (hmembers : Proceeds c (.members source s.content) m events (.ok ds) m')
      (answer : Except EvaluationError Decision) :
      Proceeds c (.set source s) m
        (.applies s.target (.ok true) :: events ++ [.combine s.algorithm ds answer])
        (answer.map fun d => [d]) m'
  | nil {c : EvaluationChain} {source : Option (Source R)} {m : Memory R X} :
      Proceeds c (.members source []) m [] (.ok []) m
  | memberFails {c : EvaluationChain} {source : Option (Source R)} {x : SetMember PolicySet}
      {rest : List (SetMember PolicySet)} {m m' : Memory R X} {events : List (Event R X)}
      {e : EvaluationError} (hmember : Proceeds c (.member source x) m events (.error e) m') :
      Proceeds c (.members source (x :: rest)) m events (.error e) m'
  /-- The members are gone through in document order. -/
  | cons {c : EvaluationChain} {source : Option (Source R)} {x : SetMember PolicySet}
      {rest : List (SetMember PolicySet)} {m m' m'' : Memory R X} {events later : List (Event R X)}
      {ds : List Decision} {result : Except EvaluationError (List Decision)}
      (hmember : Proceeds c (.member source x) m events (.ok ds) m')
      (hrest : Proceeds c (.members source rest) m' later result m'') :
      Proceeds c (.members source (x :: rest)) m (events ++ later)
        (result.map fun es => ds ++ es) m''
  | parameters {c : EvaluationChain} {source : Option (Source R)} {x : SetMember PolicySet}
      {m : Memory R X} (hx : x.decides = false) : Proceeds c (.member source x) m [] (.ok []) m
  | policy {c : EvaluationChain} {source : Option (Source R)} {p : Policy} {m : Memory R X}
      (answer : Except EvaluationError Decision) :
      Proceeds c (.member source (.policy p)) m [.policy p answer] (answer.map fun d => [d]) m
  | policySet {c : EvaluationChain} {source : Option (Source R)} {s : PolicySet}
      {m m' : Memory R X} {events : List (Event R X)}
      {result : Except EvaluationError (List Decision)}
      (hset : Proceeds c (.set source s) m events result m') :
      Proceeds c (.member source (.policySet s)) m events result m'
  | unresolved {c : EvaluationChain} {source : Option (Source R)} {kind : ArtifactKind}
      {r : IdReference} {m m' : Memory R X} {events : List (Event R X)} {e : ResolutionError}
      (hresolve : Resolves source ⟨kind, r⟩ m events (.error e) m') :
      Proceeds c (.member source (.reference kind r)) m events (.error (.resolution e)) m'
  /-- A reference is resolved before what it means is evaluated. -/
  | reference {c : EvaluationChain} {source : Option (Source R)} {kind : ArtifactKind}
      {r : IdReference} {m m' m'' : Memory R X} {events later : List (Event R X)}
      {a : Artifact R X} {result : Except EvaluationError (List Decision)}
      (hresolve : Resolves source ⟨kind, r⟩ m events (.ok a) m')
      (hartifact : Proceeds c (.artifact a) m' later result m'') :
      Proceeds c (.member source (.reference kind r)) m (events ++ later) result m''
  | external {c : EvaluationChain} {d : PolicyDocument} {x : X} {m : Memory R X}
      (answer : Except EvaluationError Decision) :
      Proceeds c (.artifact (.external d x)) m [.foreign x d answer] (answer.map fun d => [d]) m
  | refused {c : EvaluationChain} {d : PolicyDocument} {source : Option (Source R)}
      {m : Memory R X} {e : ResolutionError}
      (henter : c.enter (Artifact.standard (X := X) d source).key = .error e) :
      Proceeds c (.artifact (.standard d source)) m [] (.error (.resolution e)) m
  | standardPolicy {c inner : EvaluationChain} {p : Policy} {source : Option (Source R)}
      {m : Memory R X}
      (henter : c.enter (Artifact.standard (X := X) (.policy p) source).key = .ok inner)
      (answer : Except EvaluationError Decision) :
      Proceeds c (.artifact (.standard (.policy p) source)) m [.policy p answer]
        (answer.map fun d => [d]) m
  /-- The set of an artifact is evaluated with the source of that artifact. -/
  | standardSet {c inner : EvaluationChain} {s : PolicySet} {source : Option (Source R)}
      {m m' : Memory R X} {events : List (Event R X)}
      {result : Except EvaluationError (List Decision)}
      (henter : c.enter (Artifact.standard (X := X) (.policySet s) source).key = .ok inner)
      (hset : Proceeds inner (.set source s) m events result m') :
      Proceeds c (.artifact (.standard (.policySet s) source)) m events result m'

/-- A call that fails is the last one, and its error is the result. -/
def StopsAtFailure (events : List (Event R X)) (result : Except EvaluationError α) : Prop :=
  ∀ earlier event later e, events = earlier ++ event :: later → event.failure? = some e →
    later = [] ∧ result = .error e

namespace StopsAtFailure

omit [DecidableEq R]

theorem nil (result : Except EvaluationError α) :
    StopsAtFailure ([] : List (Event R X)) result := by
  intro earlier event later e h
  simp at h

theorem singleton {event : Event R X} {result : Except EvaluationError α}
    (h : ∀ e, event.failure? = some e → result = .error e) : StopsAtFailure [event] result := by
  intro earlier other later e hevents hfails
  obtain _ | ⟨first, earlier⟩ := earlier
  · cases hevents
    exact ⟨rfl, h e hfails⟩
  · simp at hevents

/-- Only the error of a result matters. -/
theorem of_error {events : List (Event R X)} {result : Except EvaluationError α}
    {result' : Except EvaluationError β} (h : StopsAtFailure events result)
    (herror : ∀ e, result = .error e → result' = .error e) : StopsAtFailure events result' := by
  intro earlier event later e hevents hfails
  obtain ⟨hlast, hresult⟩ := h _ _ _ _ hevents hfails
  exact ⟨hlast, herror e hresult⟩

theorem append {events later : List (Event R X)} {a : α} {result : Except EvaluationError β}
    (h : StopsAtFailure events (.ok a : Except EvaluationError α))
    (hlater : StopsAtFailure later result) : StopsAtFailure (events ++ later) result := by
  intro front event back e hevents hfails
  obtain ⟨_, rfl, hrest⟩ | ⟨middle, hfront, hrest⟩ := List.append_eq_append_iff.1 hevents
  · exact hlater _ _ _ _ hrest hfails
  · cases middle with
    | nil => exact hlater [] _ _ _ hrest.symm hfails
    | cons first middle =>
      obtain ⟨rfl, -⟩ := List.cons.inj hrest
      cases (h _ _ _ _ hfront hfails).2

end StopsAtFailure

omit [DecidableEq R] in
theorem stopsAtFailure_map {events : List (Event R X)} {result : Except EvaluationError α}
    {f : α → β} : StopsAtFailure events (result.map f) ↔ StopsAtFailure events result :=
  ⟨fun h => h.of_error fun e he => by cases result <;> cases he; rfl,
    fun h => h.of_error fun e he => by rw [he]; rfl⟩

theorem Resolves.stopsAtFailure {source : Option (Source R)} {r : Reference} {m m' : Memory R X}
    {events : List (Event R X)} {result : Except ResolutionError (Artifact R X)}
    (h : Resolves source r m events result m') :
    StopsAtFailure events (result.mapError EvaluationError.resolution) := by
  cases h with
  | failed _ _ => exact .singleton fun _ hfails => by cases hfails; rfl
  | wrongKind _ _ _ => exact .singleton fun _ hfails => by cases hfails
  | found _ _ _ => exact .singleton fun _ hfails => by cases hfails
  | _ => exact .nil _

/-- A call that fails is the last one and decides the result. -/
theorem Proceeds.stopsAtFailure {c : EvaluationChain} {part : Part R X} {m m' : Memory R X}
    {events : List (Event R X)} {result : Except EvaluationError (List Decision)}
    (h : Proceeds c part m events result m') : StopsAtFailure events result := by
  have happlies (target : Option Target) : StopsAtFailure [Event.applies (R := R) (X := X) target
      (.ok true)] (.ok () : Except EvaluationError Unit) :=
    .singleton fun _ hfails => by cases hfails
  have hanswer {event : Except EvaluationError Decision → Event R X}
      (hevent : ∀ d, (event (.ok d)).failure? = none)
      (hfails : ∀ e, (event (.error e)).failure? = some e)
      (answer : Except EvaluationError Decision) :
      StopsAtFailure [event answer] (answer.map fun d => [d]) := by
    refine .singleton fun e he => ?_
    cases answer with
    | ok d => rw [hevent] at he; cases he
    | error e' => rw [hfails] at he; cases he; rfl
  induction h with
  | targetFails => exact .singleton fun _ hfails => by cases hfails; rfl
  | targetDiffers => exact .singleton fun _ hfails => by cases hfails
  | membersFail _ ih => exact (happlies _).append ih
  | combined _ answer ih =>
    exact ((happlies _).append ih).append (hanswer (fun _ => rfl) (fun _ => rfl) answer)
  | nil => exact .nil _
  | memberFails _ ih => exact ih
  | cons _ _ hmember hrest => exact hmember.append (stopsAtFailure_map.2 hrest)
  | parameters _ => exact .nil _
  | policy answer => exact hanswer (fun _ => rfl) (fun _ => rfl) answer
  | policySet _ ih => exact ih
  | unresolved hresolve => exact hresolve.stopsAtFailure.of_error fun _ he => by cases he; rfl
  | reference hresolve _ ih => exact StopsAtFailure.append hresolve.stopsAtFailure ih
  | external answer => exact hanswer (fun _ => rfl) (fun _ => rfl) answer
  | refused _ => exact .nil _
  | standardPolicy _ answer => exact hanswer (fun _ => rfl) (fun _ => rfl) answer
  | standardSet _ _ ih => exact ih

/-- How many decisions a part makes. -/
def Part.decisions : Part R X → Nat
  | .artifact _ => 1
  | .set _ _ => 1
  | .members _ ms => ms.countP SetMember.decides
  | .member _ x => if x.decides then 1 else 0

/-- A set is decided from one decision for each member that is not a parameter. -/
theorem Proceeds.length_eq {c : EvaluationChain} {part : Part R X} {m m' : Memory R X}
    {events : List (Event R X)} {result : Except EvaluationError (List Decision)}
    {ds : List Decision} (h : Proceeds c part m events result m') (hresult : result = .ok ds) :
    ds.length = part.decisions := by
  have hanswer {answer : Except EvaluationError Decision} {ds : List Decision}
      (hok : (answer.map fun d => [d]) = .ok ds) : ds.length = 1 := by
    cases answer <;> cases hok
    rfl
  induction h generalizing ds with
  | targetFails => cases hresult
  | targetDiffers => cases hresult; rfl
  | membersFail _ _ => cases hresult
  | combined _ answer _ => exact hanswer hresult
  | nil => cases hresult; rfl
  | memberFails _ _ => cases hresult
  | @cons _ _ x _ _ _ _ _ _ _ result _ _ hmember hrest =>
    cases result with
    | error e => cases hresult
    | ok es =>
      cases hresult
      rw [List.length_append, hmember rfl, hrest rfl]
      simp only [Part.decisions, List.countP_cons]
      exact Nat.add_comm _ _
  | parameters hx => cases hresult; simp [Part.decisions, hx]
  | policy answer => exact hanswer hresult
  | policySet _ ih => exact ih hresult
  | unresolved _ => cases hresult
  | reference _ _ ih => exact ih hresult
  | external answer => exact hanswer hresult
  | refused _ => cases hresult
  | standardPolicy _ answer => exact hanswer hresult
  | standardSet _ _ ih => exact ih hresult

end AccessPolicy
