import AccessPolicy.Construction.Factory

namespace AccessPolicy

namespace Constructor

variable {R X σ : Type}

/-- The constructor declares every capability. -/
def Complete (k : Constructor R X σ) : Prop :=
  ∀ c, k.capabilities.has c

/-- The capabilities that the constructor does not declare, in contract order. -/
def lacking (k : Constructor R X σ) : List Capability :=
  Capability.all.filter fun c => !k.capabilities.has c

theorem lacking_eq_nil_iff {k : Constructor R X σ} : k.lacking = [] ↔ k.Complete := by
  have hall : ∀ c, c ∈ Capability.all := fun c => by cases c <;> decide
  simp [lacking, Complete, hall]

instance (k : Constructor R X σ) : Decidable k.Complete :=
  decidable_of_iff _ lacking_eq_nil_iff

theorem validate_eq (k : Constructor R X σ) :
    k.validate =
      if k.Complete then .ok () else .error (.missingCapabilities k.name k.lacking) := by
  have hmissing : k.capabilities.missing .full = k.lacking := rfl
  simp only [validate, hmissing, ← lacking_eq_nil_iff]
  cases k.lacking <;> rfl

theorem complete_toConstructor [DecidableEq R] (sur : Surroundings R X σ)
    (c : StandardConstructor) : (c.toConstructor sur).Complete := by
  intro c
  cases c <;> rfl

end Constructor

theorem Catalog.register_eq {R X σ : Type} (k : Constructor R X σ) (c : Catalog R X σ) :
    register k c =
      if k.name ∈ c.names then .error (.alreadyRegistered k.name) c
      else if k.Complete then .ok () (c.add k)
      else .error (.missingCapabilities k.name k.lacking) c := by
  simp only [register, contains_iff, Constructor.validate_eq]
  by_cases hk : k.Complete
  · simp only [if_pos hk]
  · simp only [if_neg hk]

/-- A request to a factory, which may hand over a constructor. -/
inductive Request (K R : Type) where
  | register (k : K)
  | activate (k : K)
  | activateByName (name : String)
  | create (order : Order) (resolver : R)

/-- What a request comes to. -/
inductive Outcome (R X : Type) where
  | done
  | refused (e : FactoryError)
  | made (a : Artifact R X)
  | failed (e : ConstructionError)

namespace Outcome

variable {R X : Type}

/-- Why the request was refused, if it was. -/
def refusal? : Outcome R X → Option FactoryError
  | refused e => some e
  | _ => none

/-- The request returned an error. -/
def IsError : Outcome R X → Prop
  | done => False
  | refused _ => True
  | made _ => False
  | failed _ => True

end Outcome

/-- A factory, and the world that its constructors act on. -/
structure Workshop (R X σ : Type) where
  factory : Factory R X σ
  world : World R X σ

/-- A request of a workshop, and what came of it. -/
abbrev Served (K R X : Type) :=
  Request K R × Outcome R X

namespace Workshop

variable {R X σ : Type}

/-- Runs an operation on the factory. -/
def manage (f : ε → FactoryError) (operation : EStateM ε (Factory R X σ) Unit)
    (w : Workshop R X σ) : Outcome R X × Workshop R X σ :=
  match operation w.factory with
  | .ok () factory => (.done, { w with factory })
  | .error e factory => (.refused (f e), { w with factory })

/-- What a construction came to. -/
def settle (factory : Factory R X σ) :
    EStateM.Result ConstructionError (World R X σ) (Artifact R X) → Outcome R X × Workshop R X σ
  | .ok a world => (.made a, ⟨factory, world⟩)
  | .error e world => (.failed e, ⟨factory, world⟩)

def serve (w : Workshop R X σ) :
    Request (Constructor R X σ) R → Outcome R X × Workshop R X σ
  | .register k => w.manage .configuration (Factory.register k)
  | .activate k => w.manage .configuration (Factory.setConstructor k)
  | .activateByName name => w.manage id (Factory.setByName name)
  | .create order resolver => settle w.factory (w.factory.fill order resolver w.world)

theorem serve_register (w : Workshop R X σ) (k : Constructor R X σ) :
    w.serve (.register k) =
      if k.name ∈ w.factory.catalog.names then
        (.refused (.configuration (.alreadyRegistered k.name)), w)
      else if k.Complete then
        (.done, { w with factory := { w.factory with catalog := w.factory.catalog.add k } })
      else (.refused (.configuration (.missingCapabilities k.name k.lacking)), w) := by
  simp only [serve, manage, Factory.register, Catalog.register_eq]
  by_cases htaken : k.name ∈ w.factory.catalog.names
  · simp only [if_pos htaken]
  · by_cases hk : k.Complete
    · simp only [if_neg htaken, if_pos hk]
    · simp only [if_neg htaken, if_neg hk]

theorem serve_activate (w : Workshop R X σ) (k : Constructor R X σ) :
    w.serve (.activate k) =
      if k.Complete then (.done, { w with factory := { w.factory with active := k } })
      else (.refused (.configuration (.missingCapabilities k.name k.lacking)), w) := by
  simp only [serve, manage, Factory.setConstructor, Constructor.validate_eq]
  by_cases hk : k.Complete
  · simp only [if_pos hk]
  · simp only [if_neg hk]

/-- Activating by name is finding the constructor and activating it. -/
theorem serve_activateByName (w : Workshop R X σ) (name : String) :
    w.serve (.activateByName name) =
      match w.factory.catalog.get name with
      | .error e => (.refused (.load e), w)
      | .ok k => w.serve (.activate k) := by
  simp only [serve, manage, Factory.setByName]
  cases w.factory.catalog.get name with
  | error e => rfl
  | ok k =>
    simp only [EStateM.adaptExcept]
    cases Factory.setConstructor k w.factory <;> rfl

/-- Serves requests one after the other, and records what came of each. -/
def serveAll (w : Workshop R X σ) :
    List (Request (Constructor R X σ) R) → List (Served (Constructor R X σ) R X) × Workshop R X σ
  | [] => ([], w)
  | r :: rest =>
    let (outcome, w) := w.serve r
    let (record, w) := serveAll w rest
    ((r, outcome) :: record, w)

end Workshop

/-- What a request can come to, and the factory afterwards. -/
inductive Factory.Serves {R X σ : Type} (f : Factory R X σ) :
    Request (Constructor R X σ) R → Outcome R X → Factory R X σ → Prop
  | nameTaken {k : Constructor R X σ} (htaken : k.name ∈ f.catalog.names) :
      Serves f (.register k) (.refused (.configuration (.alreadyRegistered k.name))) f
  | incomplete {k : Constructor R X σ} (hfree : k.name ∉ f.catalog.names) (hk : ¬ k.Complete) :
      Serves f (.register k)
        (.refused (.configuration (.missingCapabilities k.name k.lacking))) f
  | registered {k : Constructor R X σ} (hfree : k.name ∉ f.catalog.names) (hk : k.Complete) :
      Serves f (.register k) .done { f with catalog := f.catalog.add k }
  | unfit {k : Constructor R X σ} (hk : ¬ k.Complete) :
      Serves f (.activate k)
        (.refused (.configuration (.missingCapabilities k.name k.lacking))) f
  | activated {k : Constructor R X σ} (hk : k.Complete) :
      Serves f (.activate k) .done { f with active := k }
  | unknown {name : String} {e : LoadError} (hget : f.catalog.get name = .error e) :
      Serves f (.activateByName name) (.refused (.load e)) f
  | unfitByName {name : String} {k : Constructor R X σ} (hget : f.catalog.get name = .ok k)
      (hk : ¬ k.Complete) :
      Serves f (.activateByName name)
        (.refused (.configuration (.missingCapabilities k.name k.lacking))) f
  | activatedByName {name : String} {k : Constructor R X σ} (hget : f.catalog.get name = .ok k)
      (hk : k.Complete) : Serves f (.activateByName name) .done { f with active := k }
  | made {order : Order} {resolver : R} (a : Artifact R X) :
      Serves f (.create order resolver) (.made a) f
  | failed {order : Order} {resolver : R} (e : ConstructionError) :
      Serves f (.create order resolver) (.failed e) f

variable {R X σ : Type}

/-- Serving a request does to the factory what requests can do, and nothing else. -/
theorem Workshop.serves_serve (w : Workshop R X σ) (r : Request (Constructor R X σ) R) :
    w.factory.Serves r (w.serve r).1 (w.serve r).2.factory := by
  have hactivate (k : Constructor R X σ) {r : Request (Constructor R X σ) R}
      (hfit : k.Complete → w.factory.Serves r .done { w.factory with active := k })
      (hunfit : ¬ k.Complete → w.factory.Serves r
        (.refused (.configuration (.missingCapabilities k.name k.lacking))) w.factory) :
      w.factory.Serves r (w.serve (.activate k)).1 (w.serve (.activate k)).2.factory := by
    rw [serve_activate]
    by_cases hk : k.Complete
    · rw [if_pos hk]
      exact hfit hk
    · rw [if_neg hk]
      exact hunfit hk
  cases r with
  | register k =>
    rw [serve_register]
    by_cases htaken : k.name ∈ w.factory.catalog.names
    · rw [if_pos htaken]
      exact .nameTaken htaken
    · by_cases hk : k.Complete
      · rw [if_neg htaken, if_pos hk]
        exact .registered htaken hk
      · rw [if_neg htaken, if_neg hk]
        exact .incomplete htaken hk
  | activate k => exact hactivate k .activated .unfit
  | activateByName name =>
    rw [serve_activateByName]
    cases hget : w.factory.catalog.get name with
    | error e => exact .unknown hget
    | ok k => exact hactivate k (.activatedByName hget) (.unfitByName hget)
  | create order resolver =>
    simp only [serve]
    cases w.factory.fill order resolver w.world with
    | ok a world => exact .made a
    | error e world => exact .failed e

end AccessPolicy
