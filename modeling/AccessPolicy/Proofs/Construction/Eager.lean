import AccessPolicy.Proofs.Construction.Canonical
import AccessPolicy.Proofs.Evaluation.Ownership
import AccessPolicy.Proofs.Evaluation.OwnReferences
import AccessPolicy.Proofs.Resolution.Source
import Mathlib.Data.List.Dedup
import Mathlib.Data.Prod.Basic

namespace AccessPolicy

open Evaluation Moment

variable {R X σ : Type} [DecidableEq R] {sur : Surroundings R X σ}

namespace World

theorem isSome_known?_iff {w : World R X σ} {s : Source R} {k : ReferenceKey} :
    (w.known? (some s) k).isSome ↔ (s, k) ∈ w.remembered.map Prod.fst := by
  rw [known?_some, remembered?, List.lookup_isSome_iff, List.mem_map]
  refine exists_congr fun entry => and_congr_right fun _ => ?_
  rw [beq_iff_eq, eq_comm]

/-- A sound world remembers as many references of a source as are known. -/
theorem Sound.countRemembered_eq {w : World R X σ} (hw : w.Sound) {s : Source R}
    {ks : List ReferenceKey} (hks : ks.Nodup)
    (hknown : ∀ k, (w.known? (some s) k).isSome ↔ k ∈ ks) : w.countRemembered s = ks.length := by
  have hperm : ((w.remembered.map Prod.fst).filter fun e => e.1 = s).Perm (ks.map (Prod.mk s)) := by
    refine (List.perm_ext_iff_of_nodup (hw.nodup.filter _)
      (hks.map (Prod.mk_right_injective s))).2 ?_
    rintro ⟨t, k⟩
    simp only [List.mem_filter, decide_eq_true_eq, List.mem_map, Prod.mk.injEq]
    constructor
    · rintro ⟨hmem, rfl⟩
      exact ⟨k, (hknown k).1 (isSome_known?_iff.2 (List.mem_map.2 hmem)), rfl, rfl⟩
    · rintro ⟨l, hl, rfl, rfl⟩
      exact ⟨List.mem_map.1 (isSome_known?_iff.1 ((hknown l).2 hl)), rfl⟩
  calc w.countRemembered s
      = ((w.remembered.map Prod.fst).filter fun e => e.1 = s).length := by
        rw [countRemembered, ← List.countP_eq_length_filter, List.countP_map]
        rfl
    _ = (ks.map (Prod.mk s)).length := hperm.length_eq
    _ = ks.length := List.length_map _

end World

theorem isSome_known?_resolve {source : Option (Source R)} {r : Reference} {w t : World R X σ}
    {a : Artifact R X} (h : resolve sur source r w = .ok a t) (k : ReferenceKey) :
    (t.known? source k).isSome ↔ k = r.key ∨ (w.known? source k).isSome := by
  have hend : endState (resolve sur source r w) = t := by rw [h]; rfl
  by_cases hkey : k = r.key
  · have hself := World.known?_resolve_self sur source r w
    rw [h] at hself
    rw [hkey]
    exact iff_of_true (Option.isSome_of_mem hself) (.inl rfl)
  · have hother : (source, k) ≠ (source, r.key) := fun heq => hkey (Prod.mk.inj heq).2
    rw [← hend, World.known?_resolve_of_ne sur hother]
    exact (or_iff_right hkey).symm

/-- What is known after references have all been resolved are they and what was known before. -/
theorem isSome_known?_resolveAll {source : Option (Source R)} {rs : List Reference}
    {w w' : World R X σ} (h : resolveAll sur source rs w = .ok () w') (k : ReferenceKey) :
    (w'.known? source k).isSome ↔ k ∈ rs.map Reference.key ∨ (w.known? source k).isSome := by
  induction rs generalizing w with
  | nil =>
    cases h
    simp
  | cons r rest ih =>
    simp only [resolveAll, Bind.bind, EStateM.bind] at h
    cases hfirst : resolve sur source r w with
    | error e t =>
      rw [hfirst] at h
      cases h
    | ok a t =>
      rw [hfirst] at h
      rw [ih h, isSome_known?_resolve hfirst, List.map_cons, List.mem_cons, or_left_comm, or_assoc]

/-- The constructor builds the artifact by one of its operations, with a resolver or without. -/
def StandardConstructor.Constructs (c : StandardConstructor) (sur : Surroundings R X σ)
    (w : World R X σ) (a : Artifact R X) (w' : World R X σ) : Prop :=
  ∃ input,
    (∃ kind, ((c.toConstructor sur).construct kind).on input w = .ok a w') ∨
    (∃ kind resolver,
      ((c.toConstructor sur).constructWithResolver kind resolver).on input w = .ok a w') ∨
    ∃ resolver, ((c.toConstructor sur).constructInferred resolver).on input w = .ok a w'

/-- The constructor reads a document and builds the artifact for it, without a source or for one
that it has opened. -/
theorem StandardConstructor.Constructs.cases {c : StandardConstructor} {w w' : World R X σ}
    {a : Artifact R X} (h : c.Constructs sur w a w') :
    ∃ input expected d, (c.readDocument expected).on input = .ok d ∧
      (c.build sur d none w = .ok a w' ∨
        ∃ resolver, c.build sur d (some (w.openSource resolver).1) (w.openSource resolver).2 =
          .ok a w') := by
  obtain ⟨input, ⟨kind, hrun⟩ | ⟨kind, resolver, hrun⟩ | ⟨resolver, hrun⟩⟩ := h
  · obtain ⟨d, hread, hbuild⟩ := construct_eq_ok_iff.1 hrun
    exact ⟨input, _, d, hread, .inl hbuild⟩
  · obtain ⟨d, hread, hbuild⟩ := constructResolving_eq_ok_iff.1 hrun
    exact ⟨input, _, d, hread, .inr ⟨resolver, hbuild⟩⟩
  · obtain ⟨d, hread, hbuild⟩ := constructResolving_eq_ok_iff.1 hrun
    exact ⟨input, _, d, hread, .inr ⟨resolver, hbuild⟩⟩

/-- What the artifact is for was read by the constructor. -/
theorem StandardConstructor.Constructs.readDocument {c : StandardConstructor} {w w' : World R X σ}
    {a : Artifact R X} (h : c.Constructs sur w a w') :
    ∃ input expected, (c.readDocument expected).on input = .ok a.document := by
  obtain ⟨input, expected, d, hread, hbuild | ⟨resolver, hbuild⟩⟩ := h.cases
  all_goals
    obtain ⟨rfl, -⟩ := build_eq_ok_iff.1 hbuild
    exact ⟨input, expected, hread⟩

/-- An artifact is built for a source that nothing is remembered for, or without one. -/
theorem StandardConstructor.Constructs.build {c : StandardConstructor} {w w' : World R X σ}
    {a : Artifact R X} (h : c.Constructs sur w a w') (hw : w.History sur)
    (hnumbered : w.Numbered) :
    ∃ d source u, u.History sur ∧ (∀ k, u.known? source k = none) ∧
      c.build sur d source u = .ok a w' := by
  obtain ⟨-, -, d, -, hbuild | ⟨resolver, hbuild⟩⟩ := h.cases
  · exact ⟨d, none, w, hw, fun _ => rfl, hbuild⟩
  · exact ⟨d, some (w.openSource resolver).1, (w.openSource resolver).2, hw.opened resolver,
      World.remembered?_openSource hnumbered resolver, hbuild⟩

/-- After eager construction precisely the references of the document are known. -/
theorem StandardConstructor.Constructs.known {c : StandardConstructor} {w w' : World R X σ}
    {a : Artifact R X} (hc : c.resolution = .eager) (h : c.Constructs sur w a w')
    (hw : w.History sur) (hnumbered : w.Numbered) :
    ∃ d source, a = .standard d source ∧ w'.Sound ∧
      ∀ k, (w'.known? source k).isSome ↔ k ∈ d.references.map Reference.key := by
  obtain ⟨d, source, u, hu, hfresh, hbuild⟩ := h.build hw hnumbered
  obtain ⟨rfl, hresolved⟩ := build_eq_ok_iff.1 hbuild
  rw [hc] at hresolved
  refine ⟨d, source, rfl, (history_of_build hu hbuild).sound, fun k => ?_⟩
  rw [isSome_known?_resolveAll hresolved, hfresh k]
  exact or_iff_left Bool.false_ne_true

/-- Building an artifact turns to references on its behalf alone. -/
theorem StandardConstructor.exists_timeline_of_build {c : StandardConstructor} {d : PolicyDocument}
    {source : Option (Source R)} {u w' : World R X σ} {a : Artifact R X}
    (h : c.build sur d source u = .ok a w') :
    ∃ vs, (∀ x ∈ vs, x.artifact? = some a) ∧ ∀ bs, a.Among bs →
      (∀ x ∈ vs, x.AnsweredFrom sur bs) → Timeline sur bs u vs bs w' := by
  obtain ⟨rfl, -⟩ := build_eq_ok_iff.1 h
  obtain rfl | hresolved := world_of_build h
  · exact ⟨[], List.forall_mem_nil _, fun _ _ _ => .done⟩
  · have hvisits := Timeline.exists_of_resolveAll sur d source (List.Subset.refl _) u
    rwa [hresolved] at hvisits

/-- Constructing an artifact is a timeline to it, if resolvers answer from what there is. -/
theorem StandardConstructor.Constructs.exists_timeline {c : StandardConstructor}
    {w w' : World R X σ} {a : Artifact R X} (h : c.Constructs sur w a w') :
    ∃ vs, (∀ x ∈ vs, x.artifact? = some a) ∧ ∀ as, ∃ bs, as ⊆ bs ∧ a.Among bs ∧
      ((∀ x ∈ vs, x.AnsweredFrom sur bs) → Timeline sur as w vs bs w') := by
  obtain ⟨-, -, d, -, hbuild | ⟨resolver, hbuild⟩⟩ := h.cases
  all_goals
    obtain ⟨rfl, -⟩ := build_eq_ok_iff.1 hbuild
    obtain ⟨vs, hvs, htimeline⟩ := exists_timeline_of_build hbuild
  · exact ⟨vs, hvs, fun as => ⟨as, List.Subset.refl _, .inr rfl, htimeline as (.inr rfl)⟩⟩
  · refine ⟨vs, hvs, fun as => ⟨_ :: as, List.subset_cons_self _ _, .inl List.mem_cons_self, ?_⟩⟩
    exact fun hanswers => .made d resolver (htimeline _ (.inl List.mem_cons_self) hanswers)

section

variable {d : PolicyDocument} {source : Option (Source R)} {w v : World R X σ}
  {vs : List (Visit R X σ)}

/-- What an artifact turns to is known, if all of its references are. -/
theorem Visited.known_of_own (h : Visited sur w vs v)
    (hknown : ∀ k, (w.known? source k).isSome ↔ k ∈ d.references.map Reference.key)
    {x : Visit R X σ} (hx : x ∈ vs) (hown : x.artifact? = some (.standard d source)) :
    x.source = source ∧ ∃ b, x.known? = some b := by
  obtain ⟨d', hartifact, hreference⟩ := h.placed x hx
  cases hown.symm.trans hartifact
  have hmem : x.reference.key ∈ d.references.map Reference.key := List.mem_map_of_mem hreference
  obtain ⟨b, hb⟩ := Option.isSome_iff_exists.1 ((hknown _).2 hmem)
  exact ⟨rfl, b, (h.follow.known hb).1 x hx⟩

/-- Unless it has a source in common with another artifact, nothing more becomes known for it. -/
theorem Visited.known?_eq (h : Visited sur w vs v)
    (hknown : ∀ k, (w.known? source k).isSome ↔ k ∈ d.references.map Reference.key)
    (hown : ∀ x ∈ vs, source.isSome → x.source = source →
      x.artifact? = some (.standard d source)) :
    (∀ x ∈ vs, ∀ k, x.world.known? source k = w.known? source k) ∧
      ∀ k, v.known? source k = w.known? source k := by
  obtain _ | s := source
  · exact ⟨fun _ _ _ => rfl, fun _ => rfl⟩
  refine h.follow.invariant (P := fun u => ∀ k, u.known? (some s) k = w.known? (some s) k)
    (fun hsame hu k => (World.known?_congr hsame _ k).trans (hu k)) (fun x hx hu k => ?_)
    fun _ => rfl
  by_cases hsource : x.source = some s
  · obtain ⟨-, b, hb⟩ := h.known_of_own hknown hx (hown x hx rfl hsource)
    rw [Visit.next, resolve_of_known hb]
    exact hu k
  · have hother : (some s, k) ≠ (x.source, x.reference.key) :=
      fun heq => hsource (Prod.mk.inj heq).1.symm
    exact (World.known?_resolve_of_ne sur hother).trans (hu k)

end

/-- As many references are resolved as the document has different ones, if they are those known. -/
theorem World.Sound.resolvedCount_eq {u : World R X σ} (hu : u.Sound) {d : PolicyDocument}
    {source : Option (Source R)}
    (hknown : ∀ k, (u.known? source k).isSome ↔ k ∈ d.references.map Reference.key) :
    u.resolvedCount (.standard d source) =
      some (d.references.map Reference.key).dedup.length := by
  obtain _ | s := source
  · have hnone : d.references.map Reference.key = [] :=
      List.eq_nil_iff_forall_not_mem.2 fun k hk => Bool.false_ne_true ((hknown k).2 hk)
    rw [hnone]
    rfl
  · refine congrArg some (hu.countRemembered_eq (List.nodup_dedup _) fun k => ?_)
    rw [hknown, List.mem_dedup]

/-- The references that a document lists are those that evaluating it can turn to. An evaluation
turns to references of its own document in the order of the list, and to all of them if every target
applies that is asked for in the document and there is a decision. When eager construction has
succeeded, as many references are resolved as the list has different ones, and no call is made on
behalf of the artifact any more, whatever is constructed and evaluated afterwards. No further
references are resolved for it while it has its source for itself, and so it has as long as
artifacts come from nothing but construction, for which a source is opened each time. -/
theorem references_suffice (sur : Surroundings R X σ) :
    (∀ (ev : Evaluator σ) (d : PolicyDocument) (source : Option (Source R))
      (s : Evaluation R X σ), ∃ ms,
        Run sur ev (start (.standard d source) s) ms
          (settle [] (evaluateIn sur ev (.standard d source) s)) ∧
        (ms.filterMap ownReference?).Sublist d.references ∧
        ((∀ m ∈ ms, m.TargetApplies ev) →
          ∀ decision t, evaluateIn sur ev (.standard d source) s = .ok decision t →
            ms.filterMap ownReference? = d.references)) ∧
    ∀ (c : StandardConstructor) (w w' : World R X σ) (a : Artifact R X), c.resolution = .eager →
      w.History sur → w.Numbered → c.Constructs sur w a w' →
      ∃ d source, a = .standard d source ∧
        w'.resolvedCount a = some (d.references.map Reference.key).dedup.length ∧
        (∀ earlier, ∃ vs, Visited sur w' vs (w'.afterAll sur earlier)) ∧
        (∀ vs v, Visited sur w' vs v →
          (∀ x ∈ vs, x.artifact? = some a → x.calls sur = []) ∧
          ((∀ x ∈ vs, source.isSome → x.source = source → x.artifact? = some a) →
            (∀ x ∈ vs, x.world.resolvedCount a = w'.resolvedCount a) ∧
              v.resolvedCount a = w'.resolvedCount a)) ∧
        ∀ outside us as, Timeline sur [] (.new outside) us as w' → a.Among as →
          ∀ vs bs v, Timeline sur as w' vs bs v →
            (∀ x ∈ vs, x.world.resolvedCount a = w'.resolvedCount a) ∧
              v.resolvedCount a = w'.resolvedCount a := by
  refine ⟨fun ev d source s => ?_, fun c w w' a hc hw hnumbered hconstructs => ?_⟩
  · obtain ⟨ms, hrun⟩ := exists_run_evaluateIn sur ev (.standard d source) s
    exact ⟨ms, hrun, ownReferences_evaluateIn hrun⟩
  · obtain ⟨d, source, rfl, hsound, hknown⟩ := hconstructs.known hc hw hnumbered
    have hcount := hsound.resolvedCount_eq hknown
    have hsame {vs : List (Visit R X σ)} {v : World R X σ} (hvisited : Visited sur w' vs v)
        (hown : ∀ x ∈ vs, source.isSome → x.source = source →
          x.artifact? = some (.standard d source)) :
        (∀ x ∈ vs, x.world.resolvedCount (.standard d source) =
            w'.resolvedCount (.standard d source)) ∧
          v.resolvedCount (.standard d source) = w'.resolvedCount (.standard d source) := by
      obtain ⟨hworlds, hlast⟩ := hvisited.known?_eq hknown hown
      obtain ⟨hsounds, hsoundLast⟩ := hvisited.follow.sound hsound
      rw [hcount]
      refine ⟨fun x hx => (hsounds x hx).resolvedCount_eq fun k => ?_,
        hsoundLast.resolvedCount_eq fun k => ?_⟩
      · rw [hworlds x hx k, hknown]
      · rw [hlast k, hknown]
    refine ⟨d, source, rfl, hcount, Visited.exists_afterAll w',
      fun vs v hvisited => ⟨fun x hx hown => ?_, hsame hvisited⟩, ?_⟩
    · obtain ⟨-, b, hb⟩ := hvisited.known_of_own hknown hx hown
      exact x.calls_of_known hb
    · intro outside us as hpast ha vs bs v hfuture
      have howned := hpast.ownedBy (World.ownedBy_new outside)
      exact hsame hfuture.visited (hfuture.artifact?_eq howned ha)

/-- A set that refers to one policy twice. -/
def twiceSet : PolicySet :=
  ((PolicySet.new "twice" "first").withReference .policy (.new "leaf")).withReference .policy
    (.new "leaf")

def twiceArtifact : Artifact Unit Empty :=
  .standard (.policySet twiceSet) (some ⟨(), 0⟩)

/-- The world after `twiceArtifact` has been constructed; the third answer is a policy. -/
def twiceWorld : World Unit Empty Nat :=
  ⟨[((⟨(), 0⟩, ⟨.policy, "leaf", none⟩), leafArtifact)], 1, 3⟩

theorem construct_twiceSet :
    StandardConstructor.eagerConstructor.Constructs changing (.new 2) twiceArtifact twiceWorld := by
  obtain ⟨input, hread⟩ := StandardConstructor.eagerConstructor.exists_readDocument_eq_ok
    (d := .policySet twiceSet) (v := ⟨[1, 0]⟩) (by decide +kernel) rfl (by decide +kernel)
    (by decide +kernel)
  exact ⟨input, .inr (.inr ⟨(),
    StandardConstructor.constructResolving_eq_ok_iff.2 ⟨_, hread none (by simp), rfl⟩⟩)⟩

/-- Two visits of the reference, with the policy already known. -/
def twiceVisits : List (Visit Unit Empty Nat) :=
  List.replicate 2 ⟨some twiceArtifact, some ⟨(), 0⟩, ⟨.policy, .new "leaf"⟩, twiceWorld⟩

/-- The set is made and its references are resolved in advance; the resolver answers with a policy
that has no source. -/
theorem timeline_twiceWorld : ∃ us, Timeline changing [] (.new 2) us [twiceArtifact] twiceWorld := by
  have hmade : (Artifact.standard (.policySet twiceSet) (some ⟨(), 0⟩)).Among [twiceArtifact] :=
    .inl List.mem_cons_self
  refine ⟨_, .made (.policySet twiceSet) () <| .resolved (.policySet twiceSet) _ hmade
    (r := ⟨.policy, .new "leaf"⟩) List.mem_cons_self ?_ .done⟩
  rintro a ⟨resolver, id, pattern, hcall, -⟩
  cases List.mem_singleton.1 hcall
  exact .inr rfl

theorem timeline_twiceVisits :
    Timeline changing [twiceArtifact] twiceWorld twiceVisits [twiceArtifact]
      (endState (evaluateIn changing permitting twiceArtifact ⟨.empty, twiceWorld⟩)).world := by
  have hrun : Run changing permitting (start twiceArtifact ⟨.empty, twiceWorld⟩) _
      (settle [] (evaluateIn changing permitting twiceArtifact ⟨.empty, twiceWorld⟩)) :=
    .head rfl <| .head rfl <| .head rfl <| .head rfl <| .head rfl <| .head rfl <| .head rfl <|
      .head rfl <| .head rfl <| .head rfl <| .head rfl <| .head rfl <| .head rfl <| .head rfl .refl
  refine .evaluated permitting twiceArtifact .empty (.inl List.mem_cons_self) hrun
    (fun x hx => ?_) .done
  have hvisit : x = ⟨some twiceArtifact, some ⟨(), 0⟩, ⟨.policy, .new "leaf"⟩, twiceWorld⟩ :=
    List.eq_of_mem_replicate (n := 2) hx
  exact Visit.answeredFrom_of_known (a := leafArtifact) (by rw [hvisit]; rfl)

/-- The policy is fetched once in advance, and evaluating the set turns to both references without a
call. -/
theorem references_suffice_twiceSet :
    twiceWorld.resolvedCount twiceArtifact = some 1 ∧
      (∀ x ∈ twiceVisits, x.calls changing = []) ∧
      (endState (evaluateIn changing permitting twiceArtifact
        ⟨.empty, twiceWorld⟩)).world.resolvedCount twiceArtifact = some 1 := by
  obtain ⟨-, heager⟩ := references_suffice changing
  obtain ⟨d, source, ha, hcount, -, hvisits, hsame⟩ := heager _ (.new 2) twiceWorld twiceArtifact
    rfl (.new 2) (World.numbered_new 2) construct_twiceSet
  cases ha
  obtain ⟨us, hpast⟩ := timeline_twiceWorld
  obtain ⟨hcalls, -⟩ := hvisits _ _ timeline_twiceVisits.visited
  obtain ⟨-, hlast⟩ := hsame 2 us _ hpast (.inl List.mem_cons_self) _ _ _ timeline_twiceVisits
  have hown : ∀ x ∈ twiceVisits, x.artifact? = some twiceArtifact :=
    fun x hx => congrArg Visit.artifact? (List.eq_of_mem_replicate hx)
  exact ⟨hcount, fun x hx => hcalls x hx (hown x hx), hlast.trans hcount⟩

end AccessPolicy
