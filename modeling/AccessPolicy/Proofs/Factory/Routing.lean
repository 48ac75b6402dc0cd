import AccessPolicy.Proofs.Factory.Requests
import AccessPolicy.Proofs.Journal

namespace AccessPolicy

variable {ι R X σ τ : Type}

/-- A call of a constructor. -/
inductive Call (R : Type) where
  | construct (input : ByteStream) (kind : ArtifactKind)
  | constructWithResolver (input : ByteStream) (kind : ArtifactKind) (resolver : R)
  | constructInferred (input : ByteStream) (resolver : R)

namespace Call

/-- What the document is read from. -/
def input : Call R → ByteStream
  | .construct input _ => input
  | .constructWithResolver input _ _ => input
  | .constructInferred input _ => input

/-- The same call for another stream. -/
def withInput (t : ByteStream) : Call R → Call R
  | .construct _ kind => .construct t kind
  | .constructWithResolver _ kind resolver => .constructWithResolver t kind resolver
  | .constructInferred _ resolver => .constructInferred t resolver

@[simp]
theorem withInput_input (call : Call R) : call.withInput call.input = call := by
  cases call <;> rfl

@[simp]
theorem input_withInput (call : Call R) (t : ByteStream) : (call.withInput t).input = t := by
  cases call <;> rfl

end Call

namespace Constructor

/-- The operation that a call is of. -/
def operation (k : Constructor R X σ) : Call R → Consuming R X σ (Artifact R X)
  | .construct _ kind => k.construct kind
  | .constructWithResolver _ kind resolver => k.constructWithResolver kind resolver
  | .constructInferred _ resolver => k.constructInferred resolver

/-- What comes of a call. -/
def answer (k : Constructor R X σ) (call : Call R) : Constructing R X σ (Artifact R X) :=
  (k.operation call).on call.input

/-- What a call leaves of its stream. -/
def leaves (k : Constructor R X σ) (call : Call R) (w : World R X σ) : ByteStream :=
  (endState (k.operation call (w, call.input))).2

end Constructor

/-- The call that an order is filled by. An order of a node is for the bytes that the node is
written as, if it can be written. -/
def Order.call (order : Order) (resolver : R) : Except MarshalError (Call R) :=
  match order with
  | .policy input => .ok (.construct input .policy)
  | .policySet input => .ok (.construct input .policySet)
  | .policySetWithResolver input => .ok (.constructWithResolver input .policySet resolver)
  | .inferred input => .ok (.constructInferred input resolver)
  | .fromPolicy p =>
    (PolicyDocument.policy p).marshal.map fun bytes => .construct (.ofBytes bytes) .policy
  | .fromPolicySet s =>
    (PolicyDocument.policySet s).marshal.map fun bytes => .construct (.ofBytes bytes) .policySet

theorem Factory.fill_eq (f : Factory R X σ) (order : Order) (resolver : R) :
    f.fill order resolver = match order.call resolver with
      | .error e => throw (.marshal e)
      | .ok call => f.active.answer call := by
  cases order with
  | fromPolicy p =>
    simp only [fill, createPolicyFrom, Order.call]
    cases (PolicyDocument.policy p).marshal <;> rfl
  | fromPolicySet s =>
    simp only [fill, createPolicySetFrom, Order.call]
    cases (PolicyDocument.policySet s).marshal <;> rfl
  | _ => rfl

/-- A constructor with a tag, which tells it from others that may be named or even act like it. -/
structure Agent (ι R X σ : Type) where
  tag : ι
  constructor : Constructor R X σ

namespace Agent

def name (a : Agent ι R X σ) : String :=
  a.constructor.name

/-- Notes an event, which tells what stream there is, and leaves the work to `x`. -/
def noting (event : ByteStream → E) (x : Consuming R X σ α) : Consuming R X (Journal E σ) α :=
  fun s => mapEnd (Prod.map (World.journaled (s.1.outside.events ++ [event s.2])) id)
    (x (s.1.map Journal.state, s.2))

/-- The constructor that notes its tag and the call each time it is called. -/
def recorded (a : Agent ι R X σ) : Constructor R X (Journal (ι × Call R) σ) where
  name := a.name
  capabilities := a.constructor.capabilities
  construct kind :=
    noting (fun input => (a.tag, .construct input kind)) (a.constructor.construct kind)
  constructWithResolver kind resolver :=
    noting (fun input => (a.tag, .constructWithResolver input kind resolver))
      (a.constructor.constructWithResolver kind resolver)
  constructInferred resolver :=
    noting (fun input => (a.tag, .constructInferred input resolver))
      (a.constructor.constructInferred resolver)

theorem on_noting (event : ByteStream → E) (x : Consuming R X σ α) (input : ByteStream)
    (w : World R X σ) (events : List E) :
    (noting event x).on input (w.journaled events) =
      mapEnd (World.journaled (events ++ [event input])) (x.on input w) := by
  have hrun : x ((w.journaled events).map Journal.state, input) = x (w, input) := rfl
  simp only [Consuming.on, noting, hrun]
  cases x (w, input) <;> rfl

theorem operation_recorded (a : Agent ι R X σ) (call : Call R) :
    a.recorded.operation call =
      noting (fun input => (a.tag, call.withInput input)) (a.constructor.operation call) := by
  cases call <;> rfl

/-- A recorded constructor notes the call and answers as it does without being recorded. -/
theorem answer_recorded (a : Agent ι R X σ) (call : Call R) (w : World R X σ)
    (events : List (ι × Call R)) :
    a.recorded.answer call (w.journaled events) =
      mapEnd (World.journaled (events ++ [(a.tag, call)])) (a.constructor.answer call w) := by
  rw [Constructor.answer, operation_recorded, on_noting, Call.withInput_input, Constructor.answer]

end Agent

def Request.map (f : K → L) : Request K R → Request L R
  | .register k => .register (f k)
  | .activate k => .activate (f k)
  | .activateByName name => .activateByName name
  | .create order resolver => .create order resolver

/-- The request is to make a constructor the active one. -/
def Request.IsActivation : Request K R → Prop
  | .activate _ => True
  | .activateByName _ => True
  | _ => False

/-- The constructors of a factory: those in its catalog, by the names they are found under, and the
active one. -/
structure Roster (ι R X σ : Type) where
  entries : List (String × Agent ι R X σ)
  active : Agent ι R X σ

namespace Roster

/-- The factory that has these constructors, each in the form that `f` gives. -/
def factory (f : Agent ι R X σ → Constructor R X τ) (roster : Roster ι R X σ) : Factory R X τ :=
  ⟨⟨roster.entries.map fun e => (e.1, f e.2)⟩, f roster.active⟩

def workshop (f : Agent ι R X σ → Constructor R X τ) (roster : Roster ι R X σ)
    (world : World R X τ) : Workshop R X τ :=
  ⟨roster.factory f, world⟩

/-- The roster after a request that came to the outcome. Only a request that succeeds changes it: a
registration adds a constructor, and an activation makes the constructor the active one, which is
handed over or found in the catalog. -/
def after (roster : Roster ι R X σ) :
    Served (Agent ι R X σ) R X → Roster ι R X σ
  | (.register a, .done) => { roster with entries := roster.entries ++ [(a.name, a)] }
  | (.activate a, .done) => { roster with active := a }
  | (.activateByName name, .done) =>
    { roster with active := (roster.entries.lookup name).getD roster.active }
  | _ => roster

/-- The call that a request makes. -/
def callOf (roster : Roster ι R X σ) : Request (Agent ι R X σ) R → List (ι × Call R)
  | .create order resolver =>
    match order.call resolver with
    | .ok call => [(roster.active.tag, call)]
    | .error _ => []
  | _ => []

/-- The roster after requests that came to what is recorded of them. -/
def follow (roster : Roster ι R X σ) (record : List (Served (Agent ι R X σ) R X)) :
    Roster ι R X σ :=
  record.foldl after roster

/-- The calls that requests make, when they come to what is recorded of them. -/
def calls (roster : Roster ι R X σ) :
    List (Served (Agent ι R X σ) R X) → List (ι × Call R)
  | [] => []
  | served :: rest => roster.callOf served.1 ++ (roster.after served).calls rest

theorem lookup_map (f : α → β) (name : String) (entries : List (String × α)) :
    (entries.map fun e => (e.1, f e.2)).lookup name = (entries.lookup name).map f := by
  induction entries with
  | nil => rfl
  | cons e rest ih =>
    obtain ⟨key, a⟩ := e
    simp only [List.map_cons, List.lookup_cons]
    cases name == key
    · exact ih
    · rfl

theorem names_factory (f : Agent ι R X σ → Constructor R X τ) (roster : Roster ι R X σ) :
    (roster.factory f).catalog.names = roster.entries.map Prod.fst := by
  simp [factory, Catalog.names, Function.comp_def]

theorem get_factory (f : Agent ι R X σ → Constructor R X τ) (roster : Roster ι R X σ)
    (name : String) :
    (roster.factory f).catalog.get name = match roster.entries.lookup name with
      | some a => .ok (f a)
      | none => .error ⟨name⟩ := by
  simp only [factory, Catalog.get, lookup_map]
  cases roster.entries.lookup name <;> rfl

/-- What checking a constructor comes to. -/
def verdict (a : Agent ι R X σ) : Outcome R X :=
  if a.constructor.Complete then .done
  else .refused (.configuration (.missingCapabilities a.name a.constructor.lacking))

/-- What a request comes to that is not for construction. -/
def ruling (roster : Roster ι R X σ) : Request (Agent ι R X σ) R → Outcome R X
  | .register a =>
    if a.name ∈ roster.entries.map Prod.fst then
      .refused (.configuration (.alreadyRegistered a.name))
    else verdict a
  | .activate a => verdict a
  | .activateByName name =>
    match roster.entries.lookup name with
    | some a => verdict a
    | none => .refused (.load ⟨name⟩)
  | .create _ _ => .done

/-- The form that `f` gives a constructor has its name and declares its capabilities. -/
structure Presents (f : Agent ι R X σ → Constructor R X τ) : Prop where
  name : ∀ a, (f a).name = a.name
  capabilities : ∀ a, (f a).capabilities = a.constructor.capabilities

theorem presents_constructor : Presents (Agent.constructor : Agent ι R X σ → Constructor R X σ) :=
  ⟨fun _ => rfl, fun _ => rfl⟩

theorem presents_recorded :
    Presents (Agent.recorded : Agent ι R X σ → Constructor R X (Journal (ι × Call R) σ)) :=
  ⟨fun _ => rfl, fun _ => rfl⟩

theorem Presents.complete_iff {f : Agent ι R X σ → Constructor R X τ} (hf : Presents f)
    (a : Agent ι R X σ) : (f a).Complete ↔ a.constructor.Complete := by
  simp only [Constructor.Complete, hf.capabilities]

theorem Presents.lacking_eq {f : Agent ι R X σ → Constructor R X τ} (hf : Presents f)
    (a : Agent ι R X σ) : (f a).lacking = a.constructor.lacking := by
  simp only [Constructor.lacking, hf.capabilities]

/-- Whatever the form of the constructors, a request that is not for construction comes to the same,
and no constructor is called. -/
theorem serve_factory {f : Agent ι R X σ → Constructor R X τ} (hf : Presents f)
    (roster : Roster ι R X σ) (world : World R X τ) {r : Request (Agent ι R X σ) R}
    (hr : ∀ order resolver, r ≠ .create order resolver) :
    (roster.workshop f world).serve (r.map f) =
      (roster.ruling r, (roster.after (r, roster.ruling r)).workshop f world) := by
  have hnames : (roster.workshop f world).factory.catalog.names = roster.entries.map Prod.fst :=
    names_factory f roster
  have hactivate (a : Agent ι R X σ) {r : Request (Agent ι R X σ) R}
      (hafter : roster.after (r, .done) = { roster with active := a })
      (hrefused : ∀ e, roster.after (r, .refused e) = roster) :
      (roster.workshop f world).serve (.activate (f a)) =
        (verdict a, (roster.after (r, verdict a)).workshop f world) := by
    rw [Workshop.serve_activate, hf.name, hf.lacking_eq]
    by_cases hk : a.constructor.Complete
    · rw [if_pos ((hf.complete_iff a).2 hk), verdict, if_pos hk, hafter]
      rfl
    · rw [if_neg (hk ∘ (hf.complete_iff a).1), verdict, if_neg hk, hrefused]
  cases r with
  | register a =>
    rw [Request.map, Workshop.serve_register, hf.name, hf.lacking_eq, hnames, ruling]
    by_cases htaken : a.name ∈ roster.entries.map Prod.fst
    · rw [if_pos htaken, if_pos htaken]
      rfl
    · rw [if_neg htaken, if_neg htaken]
      by_cases hk : a.constructor.Complete
      · rw [if_pos ((hf.complete_iff a).2 hk), verdict, if_pos hk]
        simp [after, workshop, factory, Catalog.add, hf.name]
      · rw [if_neg (hk ∘ (hf.complete_iff a).1), verdict, if_neg hk]
        rfl
  | activate a => exact hactivate a rfl fun _ => rfl
  | activateByName name =>
    have hget : (roster.workshop f world).factory.catalog.get name = _ := get_factory f roster name
    rw [Request.map, Workshop.serve_activateByName, hget, ruling]
    cases hlookup : roster.entries.lookup name with
    | none => rfl
    | some a => exact hactivate a (by simp only [after, hlookup, Option.getD_some]) fun _ => rfl
  | create order resolver => exact absurd rfl (hr order resolver)

theorem serve_create (w : Workshop R X σ) (order : Order) (resolver : R) :
    w.serve (.create order resolver) = match order.call resolver with
      | .error e => (.failed (.marshal e), w)
      | .ok call => Workshop.settle w.factory (w.factory.active.answer call w.world) := by
  simp only [Workshop.serve, Factory.fill_eq]
  cases order.call resolver <;> rfl

theorem settle_journaled (roster : Roster ι R X σ) (events : List (ι × Call R)) (order : Order)
    (resolver : R) (result : EStateM.Result ConstructionError (World R X σ) (Artifact R X)) :
    ∃ outcome world,
      roster.after (.create order resolver, outcome) = roster ∧
      Workshop.settle (roster.factory Agent.constructor) result =
        (outcome, roster.workshop Agent.constructor world) ∧
      Workshop.settle (roster.factory Agent.recorded) (mapEnd (World.journaled events) result) =
        (outcome, roster.workshop Agent.recorded (world.journaled events)) := by
  cases result with
  | ok a world => exact ⟨.made a, world, rfl, rfl, rfl⟩
  | error e world => exact ⟨.failed e, world, rfl, rfl, rfl⟩

/-- What a request comes to, and what it makes of the roster and the world, is the same whether or
not calls are recorded; `events` are noted if they are. -/
def AlikeRecorded (roster : Roster ι R X σ) (world : World R X σ)
    (before events : List (ι × Call R)) (r : Request (Agent ι R X σ) R) : Prop :=
  ∃ outcome world',
    (roster.workshop Agent.constructor world).serve (r.map Agent.constructor) =
      (outcome, (roster.after (r, outcome)).workshop Agent.constructor world') ∧
    (roster.workshop Agent.recorded (world.journaled before)).serve (r.map Agent.recorded) =
      (outcome, (roster.after (r, outcome)).workshop Agent.recorded
        (world'.journaled (before ++ events)))

theorem serve_recorded (roster : Roster ι R X σ) (world : World R X σ)
    (before : List (ι × Call R)) (r : Request (Agent ι R X σ) R) :
    roster.AlikeRecorded world before (roster.callOf r) r := by
  have hregistry (hr : ∀ order resolver, r ≠ .create order resolver) :
      roster.AlikeRecorded world before [] r := by
    refine ⟨roster.ruling r, world, serve_factory presents_constructor roster world hr, ?_⟩
    rw [serve_factory presents_recorded roster _ hr, List.append_nil]
  cases r with
  | create order resolver =>
    simp only [AlikeRecorded, Request.map, serve_create, callOf]
    cases order.call resolver with
    | error e => exact ⟨.failed (.marshal e), world, rfl, by rw [List.append_nil]; rfl⟩
    | ok call =>
      obtain ⟨outcome, world', hafter, hplain, hrecorded⟩ := roster.settle_journaled
        (before ++ [(roster.active.tag, call)]) order resolver
        (roster.active.constructor.answer call world)
      rw [← Agent.answer_recorded] at hrecorded
      exact ⟨outcome, world', by rw [hafter]; exact hplain, by rw [hafter]; exact hrecorded⟩
  | _ => exact hregistry fun _ _ h => by cases h

/-- The requests in the form that `f` gives the constructors, with what they came to. -/
def present (f : Agent ι R X σ → Constructor R X τ)
    (record : List (Served (Agent ι R X σ) R X)) : List (Served (Constructor R X τ) R X) :=
  record.map fun served => (served.1.map f, served.2)

theorem serveAll_recorded (roster : Roster ι R X σ) (world : World R X σ)
    (before : List (ι × Call R)) (rs : List (Request (Agent ι R X σ) R)) :
    ∃ record world', record.map Prod.fst = rs ∧
      (roster.workshop Agent.constructor world).serveAll (rs.map (Request.map Agent.constructor)) =
        (present Agent.constructor record,
          (roster.follow record).workshop Agent.constructor world') ∧
      (roster.workshop Agent.recorded (world.journaled before)).serveAll
          (rs.map (Request.map Agent.recorded)) =
        (present Agent.recorded record, (roster.follow record).workshop Agent.recorded
          (world'.journaled (before ++ roster.calls record))) := by
  induction rs generalizing roster world before with
  | nil => exact ⟨[], world, rfl, rfl, by rw [calls, List.append_nil]; rfl⟩
  | cons r rest ih =>
    obtain ⟨outcome, next, hplain, hrecorded⟩ := roster.serve_recorded world before r
    obtain ⟨record, last, hrest, hplains, hrecordeds⟩ :=
      ih (roster.after (r, outcome)) next (before ++ roster.callOf r)
    refine ⟨(r, outcome) :: record, last, congrArg (r :: ·) hrest, ?_, ?_⟩
    · simp only [List.map_cons, Workshop.serveAll, hplain, hplains]
      rfl
    · simp only [List.map_cons, Workshop.serveAll, hrecorded, hrecordeds, calls, List.append_assoc]
      rfl

theorem active_after (roster : Roster ι R X σ) (r : Request (Agent ι R X σ) R)
    (outcome : Outcome R X) :
    (roster.after (r, outcome)).active = roster.active ∨ outcome = .done ∧ r.IsActivation := by
  cases outcome with
  | done =>
    cases r with
    | activate a => exact .inr ⟨rfl, trivial⟩
    | activateByName name => exact .inr ⟨rfl, trivial⟩
    | _ => exact .inl rfl
  | _ => cases r <;> exact .inl rfl

theorem tag_of_mem_callOf {roster : Roster ι R X σ} {r : Request (Agent ι R X σ) R} {tag : ι}
    {call : Call R} (h : (tag, call) ∈ roster.callOf r) : tag = roster.active.tag := by
  cases r with
  | create order resolver =>
    simp only [callOf] at h
    cases hcall : order.call resolver <;> rw [hcall] at h
    · cases h
    · exact congrArg Prod.fst (List.mem_singleton.1 h)
  | _ => cases h

/-- Whatever constructor is called was active to begin with or has been activated since. -/
theorem tag_of_mem_calls {roster : Roster ι R X σ}
    {record : List (Served (Agent ι R X σ) R X)} {tag : ι} {call : Call R}
    (h : (tag, call) ∈ roster.calls record) :
    tag = roster.active.tag ∨ ∃ earlier r later, record = earlier ++ (r, .done) :: later ∧
      r.IsActivation ∧ tag = (roster.follow (earlier ++ [(r, .done)])).active.tag := by
  induction record generalizing roster with
  | nil => cases h
  | cons served rest ih =>
    obtain ⟨r, outcome⟩ := served
    obtain hfirst | hrest := List.mem_append.1 h
    · exact .inl (tag_of_mem_callOf hfirst)
    · obtain hnow | ⟨earlier, q, later, rfl, hq, htag⟩ := ih hrest
      · obtain hkept | ⟨rfl, hr⟩ := roster.active_after r outcome
        · exact .inl (hkept ▸ hnow)
        · exact .inr ⟨[], r, rest, rfl, hr, hnow⟩
      · exact .inr ⟨(r, outcome) :: earlier, q, later, rfl, hq, htag⟩

/-- Whatever a factory has been asked for, the calls made so far are one for each construction whose
order could be put as a call, in order, each to the constructor that was activated last before; so a
constructor that was only registered, or refused, is never called. The next construction makes the
call that its order is for to the constructor activated last, and comes to what that constructor
answers; it fails without a call if its node cannot be written. Calls are seen by constructors that
record them, which makes no difference to what comes of the requests. -/
theorem serveAll_calls_last_activated (roster : Roster ι R X σ) (world : World R X σ)
    (before : List (ι × Call R)) (rs : List (Request (Agent ι R X σ) R)) :
    ∃ record world', record.map Prod.fst = rs ∧
      (roster.workshop Agent.constructor world).serveAll (rs.map (Request.map Agent.constructor)) =
        (present Agent.constructor record,
          (roster.follow record).workshop Agent.constructor world') ∧
      (roster.workshop Agent.recorded (world.journaled before)).serveAll
          (rs.map (Request.map Agent.recorded)) =
        (present Agent.recorded record, (roster.follow record).workshop Agent.recorded
          (world'.journaled (before ++ roster.calls record))) ∧
      (∀ tag call, (tag, call) ∈ roster.calls record →
        tag = roster.active.tag ∨ ∃ earlier r later, record = earlier ++ (r, .done) :: later ∧
          r.IsActivation ∧ tag = (roster.follow (earlier ++ [(r, .done)])).active.tag) ∧
      ∀ order resolver,
        ((roster.follow record).workshop Agent.constructor world').serve (.create order resolver) =
          match order.call resolver with
          | .error e =>
            (.failed (.marshal e), (roster.follow record).workshop Agent.constructor world')
          | .ok call => Workshop.settle ((roster.follow record).factory Agent.constructor)
              ((roster.follow record).active.constructor.answer call world') := by
  obtain ⟨record, world', hrequests, hplain, hrecorded⟩ := roster.serveAll_recorded world before rs
  exact ⟨record, world', hrequests, hplain, hrecorded, fun _ _ h => tag_of_mem_calls h,
    fun order resolver => serve_create _ order resolver⟩

end Roster

end AccessPolicy
