import AccessPolicy.Artifact

namespace AccessPolicy

/-- The artifacts on the path of an evaluation, the innermost first. -/
structure EvaluationChain where
  path : List ArtifactKey

namespace EvaluationChain

def limit : Nat := 64

def empty : EvaluationChain := ⟨[]⟩

def depth (c : EvaluationChain) : Nat :=
  c.path.length

/-- How many more artifacts can be entered. -/
def room (c : EvaluationChain) : Nat :=
  limit - c.depth

/-- An artifact that is already on the chain cannot be entered again, and the chain has room for
`limit` artifacts. -/
def enter (c : EvaluationChain) (k : ArtifactKey) : Except ResolutionError EvaluationChain :=
  if k ∈ c.path then .error (.circular k.id)
  else if limit ≤ c.depth then .error (.tooDeep k.id limit)
  else .ok ⟨k :: c.path⟩

/-- Leaves the innermost artifact. -/
def leave (c : EvaluationChain) : EvaluationChain :=
  ⟨c.path.tail⟩

theorem enter_eq_ok_iff {c d : EvaluationChain} {k : ArtifactKey} :
    c.enter k = .ok d ↔ k ∉ c.path ∧ c.depth < limit ∧ d = ⟨k :: c.path⟩ := by
  unfold enter
  split
  · next hmem => simp [hmem]
  · next hmem =>
    split
    · next hfull => simp [hmem, Nat.not_lt.2 hfull]
    · next hroom => simp [hmem, Nat.not_le.1 hroom, eq_comm]

theorem leave_of_enter {c d : EvaluationChain} {k : ArtifactKey} (h : c.enter k = .ok d) :
    d.leave = c := by
  obtain ⟨_, _, rfl⟩ := enter_eq_ok_iff.1 h
  rfl

theorem room_of_enter {c d : EvaluationChain} {k : ArtifactKey} (h : c.enter k = .ok d) :
    c.room = d.room + 1 := by
  obtain ⟨_, hroom, rfl⟩ := enter_eq_ok_iff.1 h
  simp only [room, depth, List.length_cons] at *
  omega

end EvaluationChain

end AccessPolicy
