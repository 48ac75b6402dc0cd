import AccessPolicy.Artifact

namespace AccessPolicy

/-- What construction and evaluation act on. -/
structure World (R X σ : Type) where
  /-- What sources have been given for references, the latest first. -/
  remembered : List ((Source R × ReferenceKey) × Artifact R X)
  /-- The number of the next source. -/
  nextCache : Nat
  /-- The state of resolvers, evaluators and artifacts from elsewhere. -/
  outside : σ

namespace World

variable {R X σ : Type}

def new (outside : σ) : World R X σ := ⟨[], 0, outside⟩

/-- A source that nothing is remembered for. -/
def openSource (w : World R X σ) (resolver : R) : Source R × World R X σ :=
  (⟨resolver, w.nextCache⟩, { w with nextCache := w.nextCache + 1 })

def remembered? [DecidableEq R] (w : World R X σ) (s : Source R) (k : ReferenceKey) :
    Option (Artifact R X) :=
  w.remembered.lookup (s, k)

def remember (w : World R X σ) (s : Source R) (k : ReferenceKey) (a : Artifact R X) :
    World R X σ :=
  { w with remembered := ((s, k), a) :: w.remembered }

/-- How many references are remembered for a source. -/
def countRemembered [DecidableEq R] (w : World R X σ) (s : Source R) : Nat :=
  w.remembered.countP fun entry => entry.1.1 = s

/-- How many of its references an artifact has resolved; only those with a source resolve any. -/
def resolvedCount [DecidableEq R] (w : World R X σ) : Artifact R X → Option Nat
  | .standard _ source => some ((source.map w.countRemembered).getD 0)
  | .external _ _ => none

/-- Runs what concerns only the state outside. -/
def ask (x : EStateM ε σ α) : EStateM ε (World R X σ) α := fun w =>
  match x w.outside with
  | .ok a s => .ok a { w with outside := s }
  | .error e s => .error e { w with outside := s }

theorem remembered?_remember_self [DecidableEq R] (w : World R X σ) (s : Source R)
    (k : ReferenceKey) (a : Artifact R X) : (w.remember s k a).remembered? s k = some a := by
  simp [remembered?, remember]

theorem remembered?_remember_of_ne [DecidableEq R] {w : World R X σ} {s t : Source R}
    {k l : ReferenceKey} {a : Artifact R X} (h : (t, l) ≠ (s, k)) :
    (w.remember s k a).remembered? t l = w.remembered? t l := by
  simp only [remembered?, remember, List.lookup_cons]
  rw [beq_eq_false_iff_ne.2 h]

end World

/-- The pattern that a reference states for the version of what it refers to. -/
def IdReference.pattern (r : IdReference) : Except VersionError (Option VersionPattern) :=
  match r.version with
  | none => .ok none
  | some text => (VersionPattern.parse text).map some

section

variable {R X σ : Type} [DecidableEq R]

/-- The artifact that a reference means, for the source of the document that it stands in. What a
resolver answered is remembered for the source, so a reference is fetched successfully at most once;
failures are not remembered. -/
def resolve (sur : Surroundings R X σ) (source : Option (Source R)) (r : Reference) :
    EStateM ResolutionError (World R X σ) (Artifact R X) := fun w =>
  match source with
  | none => .error (.noResolver r.target.value) w
  | some s =>
    match w.remembered? s r.key with
    | some a => .ok a w
    | none =>
      match r.target.pattern with
      | .error e => .error (.invalidVersion e) w
      | .ok pattern =>
        match World.ask (sur.lookUp s.resolver r.target.value pattern) w with
        | .error e w => .error e w
        | .ok a w =>
          if a.kind = r.kind then .ok a (w.remember s r.key a)
          else .error (.kindMismatch r.target.value r.kind a.kind) w

/-- Resolves references in order, up to the first that fails. -/
def resolveAll (sur : Surroundings R X σ) (source : Option (Source R)) :
    List Reference → EStateM ResolutionError (World R X σ) Unit
  | [] => return ()
  | r :: rest => do
    let _ ← resolve sur source r
    resolveAll sur source rest

end

end AccessPolicy
