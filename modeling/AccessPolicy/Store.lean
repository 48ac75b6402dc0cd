import AccessPolicy.Artifact

namespace AccessPolicy

/-- Artifacts by identifier, with several versions for each. -/
structure PolicyStore (R X : Type) where
  /-- For each identifier, in the order of first insertion, its versions. -/
  shelves : List (String × List (Version × Artifact R X))

/-- Puts `a` among the versions of an identifier. -/
def shelve (id : String) (v : Version) (a : α) :
    List (String × List (Version × α)) → List (String × List (Version × α))
  | [] => [(id, [(v, a)])]
  | (other, versions) :: rest =>
    if other = id then (other, versions.filter (fun e => e.1 ≠ v) ++ [(v, a)]) :: rest
    else (other, versions) :: shelve id v a rest

theorem lookup_shelve_self (id : String) (v : Version) (a : α)
    (shelves : List (String × List (Version × α))) :
    (shelve id v a shelves).lookup id =
      some (((shelves.lookup id).getD []).filter (fun e => e.1 ≠ v) ++ [(v, a)]) := by
  induction shelves with
  | nil => simp [shelve]
  | cons shelf rest ih =>
    obtain ⟨other, versions⟩ := shelf
    by_cases hother : other = id
    · subst hother
      simp [shelve]
    · have hne : (id == other) = false := beq_eq_false_iff_ne.2 (Ne.symm hother)
      simp only [shelve, if_neg hother, List.lookup_cons, hne]
      exact ih

theorem lookup_shelve_of_ne {id other : String} (h : other ≠ id) (v : Version) (a : α)
    (shelves : List (String × List (Version × α))) :
    (shelve id v a shelves).lookup other = shelves.lookup other := by
  induction shelves with
  | nil => simp [shelve, h]
  | cons shelf rest ih =>
    obtain ⟨first, versions⟩ := shelf
    by_cases hfirst : first = id
    · subst hfirst
      simp [shelve, List.lookup_cons, beq_eq_false_iff_ne.2 h]
    · simp only [shelve, if_neg hfirst, List.lookup_cons, ih]

/-- The entry with the greatest version, and of several such entries the last. -/
def newest? : List (Version × α) → Option (Version × α)
  | [] => none
  | e :: rest =>
    match newest? rest with
    | none => some e
    | some f => if f.1 < e.1 then some e else some f

namespace PolicyStore

variable {R X : Type}

def empty : PolicyStore R X := ⟨[]⟩

/-- Adds an artifact whose version is a version number, in place of one under the same number. -/
def insert (a : Artifact R X) : EStateM ResolutionError (PolicyStore R X) Unit := fun s =>
  match Version.parse a.version with
  | .error e => .error (.invalidVersion e) s
  | .ok v => .ok () ⟨shelve a.id v a s.shelves⟩

/-- The versions stored for an identifier. -/
def versions (s : PolicyStore R X) (id : String) : List (Version × Artifact R X) :=
  (s.shelves.lookup id).getD []

/-- An insertion moves its artifact to the end of its versions and touches no others. -/
theorem versions_insert {s t : PolicyStore R X} {a : Artifact R X} {v : Version}
    (hversion : Version.parse a.version = .ok v) (hinsert : insert a s = .ok () t) (id : String) :
    t.versions id =
      if id = a.id then (s.versions id).filter (fun e => e.1 ≠ v) ++ [(v, a)]
      else s.versions id := by
  simp only [insert, hversion] at hinsert
  cases hinsert
  split
  · next hid =>
    subst hid
    simp [versions, lookup_shelve_self]
  · next hid => simp [versions, lookup_shelve_of_ne hid]

/-- The artifact with the greatest version among those that the pattern accepts; without a pattern
every version is accepted. -/
def resolve (s : PolicyStore R X) (id : String) (pattern : Option VersionPattern) :
    Except ResolutionError (Artifact R X) :=
  let accepted := (s.versions id).filter fun e => pattern.all fun p => p.accepts e.1
  match newest? accepted with
  | some (_, a) => .ok a
  | none => .error (.notFound id (pattern.map VersionPattern.source))

def contains (s : PolicyStore R X) (id : String) : Bool :=
  (s.shelves.lookup id).isSome

/-- The identifiers in the order of first insertion. -/
def ids (s : PolicyStore R X) : List String :=
  s.shelves.map Prod.fst

/-- How many artifacts are stored, all versions counted. -/
def size (s : PolicyStore R X) : Nat :=
  (s.shelves.flatMap Prod.snd).length

def isEmpty (s : PolicyStore R X) : Bool :=
  s.shelves.isEmpty

end PolicyStore

end AccessPolicy
