import AccessPolicy.Grammar.Build
import AccessPolicy.Proofs.Evaluation.Expansion
import AccessPolicy.Proofs.Evaluation.Simulation

namespace AccessPolicy

open Evaluation

variable {R X σ : Type} [DecidableEq R] {sur : Surroundings R X σ} {ev : Evaluator σ}
  {answers : Answers R X} {c : EvaluationChain}

theorem evaluateSet_eq (source : Option (Source R))
    (visit : Artifact R X → EStateM EvaluationError (Evaluation R X σ) Decision) (s : PolicySet) :
    evaluateSet sur ev source visit s = (do
      if ← ask (ev.applies s.target) then
        let decisions ← evaluateMembers sur ev source visit s.content
        ask (ev.combine s.algorithm decisions)
      else return .notApplicable) := by
  cases s
  rw [evaluateSet]

/-- Sets with members that end alike end alike. -/
theorem Simulates.set {source source' : Option (Source R)}
    {visit visit' : Artifact R X → EStateM EvaluationError (Evaluation R X σ) Decision}
    {s : PolicySet} {content : List (SetMember PolicySet)}
    (h : Simulates answers c (evaluateMembers sur ev source visit s.content)
      (evaluateMembers sur ev source' visit' content)) :
    Simulates answers c (evaluateSet sur ev source visit s)
      (evaluateSet sur ev source' visit' { s with content }) := by
  rw [evaluateSet_eq, evaluateSet_eq]
  refine (Simulates.ask _).bind fun applies => ?_
  cases applies with
  | false => exact Simulates.pure _
  | true => exact h.bind fun ds => Simulates.ask _

/-- A member that ends alike, and then the rest. -/
theorem Simulates.decisions {x y : EStateM EvaluationError (Evaluation R X σ) Decision}
    {xs ys : EStateM EvaluationError (Evaluation R X σ) (List Decision)}
    (h : Simulates answers c x y) (hrest : Simulates answers c xs ys) :
    Simulates answers c (do let d ← x; let ds ← xs; return d :: ds)
      (do let d ← y; let ds ← ys; return d :: ds) :=
  h.bind fun _ => hrest.bind fun _ => Simulates.pure _

/-- Entering what a reference means and evaluating its document there. -/
theorem evaluateWithin_standard {d : PolicyDocument} {source : Option (Source R)} {room n : Nat}
    (h : room = n + 1) :
    evaluateWithin (X := X) sur ev room (.standard d source) =
      within (Artifact.standard (X := X) d source).key (match d with
        | .policy p => ask (ev.policy p)
        | .policySet s => evaluateSet sur ev source (evaluateWithin sur ev n) s) := by
  subst h
  rfl

theorem Expands.simulates {root : Artifact R X} (hgive : sur.Give answers)
    (hroot : Resolvable answers root) {source source' : Option (Source R)}
    {visit' : Artifact R X → EStateM EvaluationError (Evaluation R X σ) Decision}
    {ms es : List (SetMember PolicySet)} (h : Expands answers source ms es)
    {outer : List (Artifact R X)} (hpath : ReferencePath answers root outer)
    (hstands : StandsIn source (PolicySet.referencesOf ms) outer) :
    Simulates answers ⟨outer.map Artifact.key⟩
      (evaluateMembers sur ev source
        (evaluateWithin sur ev (EvaluationChain.limit - outer.length)) ms)
      (evaluateMembers sur ev source' visit' es) := by
  induction h generalizing outer with
  | nil => exact Simulates.pure _
  | policy _ ih =>
    have hrest := ih hpath (hstands.mono (PolicySet.referencesOf_subset_cons _ _))
    simp only [evaluateMembers]
    exact (Simulates.ask _).decisions hrest
  | policySet _ _ ihinner ih =>
    have hrest := ih hpath (hstands.mono (PolicySet.referencesOf_subset_cons _ _))
    have hinner := ihinner hpath (hstands.mono (PolicySet.referencesOf_content_subset _ _))
    simp only [evaluateMembers]
    exact hinner.set.decisions hrest
  | @policyReference source inner r p ms es hmeaning _ ih =>
    have hrest := ih hpath (hstands.mono (PolicySet.referencesOf_subset_cons _ _))
    have hpath' := hstands.refers hpath (PolicySet.mem_referencesOf _ _ _) hmeaning
    obtain ⟨hmem, hroom⟩ := hroot.place hpath'
    simp only [evaluateMembers]
    refine Simulates.resolve hgive hmeaning (Simulates.decisions ?_ hrest)
    rw [evaluateWithin_standard (n := EvaluationChain.limit - (outer.length + 1)) (by omega)]
    exact (Simulates.ask _).within hmem (by simpa [EvaluationChain.depth] using hroom)
  | @setReference source inner r s content ms es hmeaning _ _ ihinner ih =>
    have hrest := ih hpath (hstands.mono (PolicySet.referencesOf_subset_cons _ _))
    have hpath' := hstands.refers hpath (PolicySet.mem_referencesOf _ _ _) hmeaning
    have hinner := ihinner hpath' (standsIn_policySet s inner outer)
    obtain ⟨hmem, hroom⟩ := hroot.place hpath'
    simp only [evaluateMembers]
    refine Simulates.resolve hgive hmeaning (Simulates.decisions ?_ hrest)
    rw [evaluateWithin_standard (n := EvaluationChain.limit - (outer.length + 1)) (by omega)]
    exact hinner.set.within hmem (by simpa [EvaluationChain.depth] using hroom)
  | parameters _ ih =>
    simp only [evaluateMembers]
    exact ih hpath (hstands.mono (PolicySet.referencesOf_subset_cons _ _))
  | policyParameters _ ih =>
    simp only [evaluateMembers]
    exact ih hpath (hstands.mono (PolicySet.referencesOf_subset_cons _ _))
  | setParameters _ ih =>
    simp only [evaluateMembers]
    exact ih hpath (hstands.mono (PolicySet.referencesOf_subset_cons _ _))

/-- The outcome of an evaluation without its chain. -/
def withoutChain : EStateM.Result ε (Evaluation R X σ) α → EStateM.Result ε (World R X σ) α
  | .ok a s => .ok a s.world
  | .error e s => .error e s.world

theorem EndAlike.withoutChain {x y : EStateM.Result ε (Evaluation R X σ) α}
    (h : EndAlike (Alike answers c) x y) :
    EndAlike (fun w v => w.outside = v.outside) (withoutChain x) (withoutChain y) := by
  cases h with
  | ok h => exact .ok h.outside
  | error h => exact .error h.outside

theorem evaluate_policySet (s : PolicySet) (source : Option (Source R)) (w : World R X σ) :
    evaluate sur ev (.standard (.policySet s) source) w =
      withoutChain (evaluateSet sur ev source
        (evaluateWithin sur ev (EvaluationChain.limit - 1)) s
        ⟨⟨[(Artifact.standard (X := X) (.policySet s) source).key]⟩, w⟩) := by
  have hroom : EvaluationChain.empty.room = EvaluationChain.limit - 1 + 1 := rfl
  have henter : EvaluationChain.empty.enter (Artifact.standard (X := X) (.policySet s) source).key =
      .ok ⟨[(Artifact.standard (X := X) (.policySet s) source).key]⟩ := rfl
  simp only [evaluate, evaluateIn, evaluateWithin_standard hroom, within, henter]
  cases evaluateSet sur ev source (evaluateWithin sur ev (EvaluationChain.limit - 1)) s
    ⟨⟨[(Artifact.standard (X := X) (.policySet s) source).key]⟩, w⟩ <;> rfl

/-- A reference means the document that it names. A set all of whose references resolve, and on
whose paths of references no artifact comes twice and there are no more of them than the limit, has
one expansion, in which no reference is left. Whatever the evaluator, evaluating the expansion gives
the same decision or the same error and leaves the same state outside. -/
theorem evaluate_expansion {sur : Surroundings R Empty σ} {answers : Answers R Empty}
    {s : PolicySet} {source : Option (Source R)} (hgive : sur.Give answers)
    (hroot : Resolvable answers (.standard (.policySet s) source)) :
    ∃ content, Expands answers source s.content content ∧
      (∀ other, Expands answers source s.content other → other = content) ∧
      PolicySet.referencesOf content = [] ∧
      ∀ (ev : Evaluator σ) (inlined : Option (Source R)) (w v : World R Empty σ),
        w.History sur → w.outside = v.outside →
          EndAlike (fun w v => w.outside = v.outside)
            (evaluate sur ev (.standard (.policySet s) source) w)
            (evaluate sur ev (.standard (.policySet { s with content }) inlined) v) := by
  obtain ⟨content, hexpands⟩ := exists_expands hroot .root
  refine ⟨content, hexpands, fun other h => h.unique hexpands, hexpands.referencesOf_eq_nil, ?_⟩
  intro ev inlined w v hw houtside
  have hmembers : Simulates answers ⟨[(Artifact.standard (X := Empty) (.policySet s) source).key]⟩
      (evaluateMembers sur ev source (evaluateWithin sur ev (EvaluationChain.limit - 1)) s.content)
      (evaluateMembers sur ev inlined (evaluateWithin sur ev (EvaluationChain.limit - 1)) content) :=
    hexpands.simulates hgive hroot .root (standsIn_policySet s source [])
  have hend := hmembers.set ⟨⟨[(Artifact.standard (X := Empty) (.policySet s) source).key]⟩, w⟩
    ⟨⟨[(Artifact.standard (X := Empty) (.policySet { s with content }) inlined).key]⟩, v⟩
    ⟨rfl, hw.faithful hgive, houtside⟩
  rw [evaluate_policySet, evaluate_policySet]
  exact hend.withoutChain

def leafArtifact : Artifact Unit Empty :=
  .standard (.policy (Policy.new "leaf" "first")) none

def middleArtifact : Artifact Unit Empty :=
  .standard (.policySet ((PolicySet.new "middle" "first").withReference .policy
    ⟨"leaf", none, none, none⟩)) (some ⟨(), 1⟩)

def outerSet : PolicySet :=
  (PolicySet.new "outer" "first").withReference .policySet ⟨"middle", none, none, none⟩

def outerArtifact : Artifact Unit Empty :=
  .standard (.policySet outerSet) (some ⟨(), 0⟩)

def nestedAnswers : Answers Unit Empty :=
  fun _ id _ => if id = "middle" then .ok middleArtifact else .ok leafArtifact

def nestedSurroundings : Surroundings Unit Empty Unit where
  lookUp resolver id pattern := outcomeIn (nestedAnswers resolver id pattern)
  decide x := x.elim

theorem refers_outerArtifact {a : Artifact Unit Empty}
    (h : Refers nestedAnswers outerArtifact a) : a = middleArtifact := by
  obtain ⟨d, source, r, houter, hr, hmeaning⟩ := h
  cases houter
  obtain rfl : r = ⟨.policySet, ⟨"middle", none, none, none⟩⟩ := List.mem_singleton.1 hr
  cases hmeaning
  rfl

theorem refers_middleArtifact {a : Artifact Unit Empty}
    (h : Refers nestedAnswers middleArtifact a) : a = leafArtifact := by
  obtain ⟨d, source, r, hmiddle, hr, hmeaning⟩ := h
  cases hmiddle
  obtain rfl : r = ⟨.policy, ⟨"leaf", none, none, none⟩⟩ := List.mem_singleton.1 hr
  cases hmeaning
  rfl

theorem paths_outerArtifact {path : List (Artifact Unit Empty)}
    (h : ReferencePath nestedAnswers outerArtifact path) :
    path = [outerArtifact] ∨ path = [middleArtifact, outerArtifact] ∨
      path = [leafArtifact, middleArtifact, outerArtifact] := by
  induction h with
  | root => exact .inl rfl
  | refer _ hrefers ih =>
    obtain hpath | hpath | hpath := ih <;> cases hpath
    · exact .inr (.inl (by rw [refers_outerArtifact hrefers]))
    · exact .inr (.inr (by rw [refers_middleArtifact hrefers]))
    · obtain ⟨d, source, r, hleaf, hr, -⟩ := hrefers
      cases hleaf
      cases hr

theorem resolvable_outerArtifact : Resolvable nestedAnswers outerArtifact := by
  refine ⟨fun d source path r hpath hr => ?_, fun path hpath => ?_, fun path hpath => ?_⟩
  · obtain h | h | h := paths_outerArtifact hpath <;> cases h
    · obtain rfl : r = ⟨.policySet, ⟨"middle", none, none, none⟩⟩ := List.mem_singleton.1 hr
      exact ⟨middleArtifact, rfl⟩
    · obtain rfl : r = ⟨.policy, ⟨"leaf", none, none, none⟩⟩ := List.mem_singleton.1 hr
      exact ⟨leafArtifact, rfl⟩
    · cases hr
  · obtain rfl | rfl | rfl := paths_outerArtifact hpath <;> decide
  · obtain rfl | rfl | rfl := paths_outerArtifact hpath <;> decide

theorem evaluate_expansion_outerArtifact :
    ∃ content, Expands nestedAnswers (some ⟨(), 0⟩) outerSet.content content ∧
      ∀ ev : Evaluator Unit, EndAlike (fun w v => w.outside = v.outside)
        (evaluate nestedSurroundings ev outerArtifact (.new ()))
        (evaluate nestedSurroundings ev (.standard (.policySet { outerSet with content }) none)
          (.new ())) := by
  have hgive : nestedSurroundings.Give nestedAnswers := fun _ _ _ _ => rfl
  obtain ⟨content, hexpands, -, -, halike⟩ := evaluate_expansion hgive resolvable_outerArtifact
  exact ⟨content, hexpands, fun ev => halike ev none (.new ()) (.new ()) (.new ()) rfl⟩

end AccessPolicy
