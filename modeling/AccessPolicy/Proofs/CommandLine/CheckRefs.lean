import AccessPolicy.Proofs.CommandLine.Findings
import AccessPolicy.Proofs.Construction.Canonical
import AccessPolicy.Proofs.Factory.Registry
import AccessPolicy.Proofs.Journal

namespace AccessPolicy.CommandLine

section

variable {files : Files} {factory : CommandFactory} {c : StandardConstructor}

theorem constructing_eq_ok_iff {path : String} {x : Constructing Shelf Empty Store α} {a : α}
    {w w' : CommandWorld} : constructing path x w = .ok a w' ↔ x w = .ok a w' := by
  simp only [constructing, EStateM.adaptExcept]
  cases x w <;> simp

theorem constructFile_infer_eq_ok_iff {path : String} {b : Artifact Shelf Empty}
    {w w' : CommandWorld} :
    constructFile files factory path .infer w = .ok b w' ↔
      ∃ stream, files.contents path = .ok stream ∧
        factory.create stream .vacant w = .ok b w' := by
  simp only [constructFile, openFile, Bind.bind, EStateM.bind]
  cases files.contents path with
  | error e =>
    constructor
    · intro h
      cases h
    · rintro ⟨stream, h, -⟩
      cases h
  | ok stream =>
    refine constructing_eq_ok_iff.trans ⟨fun h => ⟨stream, rfl, h⟩, ?_⟩
    rintro ⟨other, hother, h⟩
    cases hother
    exact h

theorem stock_eq_ok {a : Artifact Shelf Empty} {v : Version}
    (hversion : Version.parse a.version = .ok v) (w : CommandWorld) :
    stock a w = .ok () { w with outside := w.outside.afterInsert a } := by
  simp only [stock, EStateM.adaptExcept, World.ask, PolicyStore.afterInsert,
    PolicyStore.insert_of_parse_ok hversion, endState]

/-- Once the set is constructed, only examining its references can fail. -/
theorem checkRefs_of_set {path directory : String} {stream : ByteStream}
    {a : Artifact Shelf Empty} {w stocked w' : CommandWorld}
    (hload : loadStore files factory directory w = .ok () stocked)
    (hstream : files.contents path = .ok stream)
    (hset : factory.createPolicySetWithResolver stream .stocked stocked = .ok a w') :
    checkRefs files factory path directory w =
      outcomeIn ((examine w'.outside a.document.references).map Report.mk) w' := by
  have hconstruct : constructing path (factory.createPolicySetWithResolver stream .stocked)
      stocked = .ok a w' := constructing_eq_ok_iff.2 hset
  have hopen : openFile files path stocked = .ok stream stocked := by
    rw [openFile, hstream]
    rfl
  have hget : (get : Running CommandWorld) w' = .ok w' w' := rfl
  simp only [checkRefs, Bind.bind, EStateM.bind, hload, hopen, hconstruct, hget]
  cases examine w'.outside a.document.references <;> rfl

variable (hactive : factory.active = c.toConstructor surroundings) (hlazy : c.resolution = .lazy)

include hactive hlazy

/-- What a lazy factory constructs in one world it constructs in all, and it has a version. -/
theorem constructFile_lazy {path : String} {b : Artifact Shelf Empty} {v v' : CommandWorld}
    (h : constructFile files factory path .infer v = .ok b v') (w : CommandWorld) :
    ∃ a w' version, constructFile files factory path .infer w = .ok a w' ∧
      Version.parse a.version = .ok version := by
  obtain ⟨stream, hstream, hcreate⟩ := constructFile_infer_eq_ok_iff.1 h
  rw [Factory.create, hactive] at hcreate
  obtain ⟨d, hread, -⟩ := StandardConstructor.constructResolving_eq_ok_iff.1 hcreate
  obtain ⟨version, hversion⟩ := StandardConstructor.exists_version_of_readDocument hread
  refine ⟨.standard d (some (w.openSource .vacant).1), (w.openSource .vacant).2, version,
    constructFile_infer_eq_ok_iff.2 ⟨stream, hstream, ?_⟩, hversion⟩
  rw [Factory.create, hactive]
  exact StandardConstructor.constructResolving_lazy hlazy hread surroundings .vacant w

/-- Documents that can be constructed one by one can be stocked. -/
theorem stockFiles_lazy {paths : List String}
    (h : ∀ p ∈ paths, ∃ b v, constructFile files factory p .infer (.new .empty) = .ok b v)
    (w : CommandWorld) : ∃ w', stockFiles files factory paths w = .ok () w' := by
  induction paths generalizing w with
  | nil => exact ⟨w, rfl⟩
  | cons path rest ih =>
    obtain ⟨⟨b, v, hfirst⟩, hrest⟩ := List.forall_mem_cons.1 h
    obtain ⟨a, u, version, hconstruct, hversion⟩ := constructFile_lazy hactive hlazy hfirst w
    obtain ⟨w', hstocked⟩ := ih hrest { u with outside := u.outside.afterInsert a }
    refine ⟨w', ?_⟩
    simpa only [stockFiles, Bind.bind, EStateM.bind, hconstruct, stock_eq_ok hversion] using hstocked

/-- Once the store is loaded, only examining the references can fail. -/
theorem checkRefs_eq {path directory : String} {stream : ByteStream} {d : PolicyDocument}
    {w stocked : CommandWorld} (hload : loadStore files factory directory w = .ok () stocked)
    (hstream : files.contents path = .ok stream)
    (hread : (c.readDocument (some .policySet)).on stream = .ok d) :
    checkRefs files factory path directory w =
      outcomeIn ((examine stocked.outside d.references).map Report.mk)
        (stocked.openSource .stocked).2 := by
  have hset : factory.createPolicySetWithResolver stream .stocked stocked =
      .ok (.standard d (some (stocked.openSource .stocked).1)) (stocked.openSource .stocked).2 := by
    rw [Factory.createPolicySetWithResolver, hactive]
    exact StandardConstructor.constructResolving_lazy hlazy hread surroundings .stocked stocked
  exact checkRefs_of_set hload hstream hset

end

theorem answerOf_outcomeIn (x : Except ε α) (s : τ) : answerOf (outcomeIn x s) = x := by
  cases x <;> rfl

theorem answersIn_stocked (store : Store) :
    surroundings.AnswersIn store .stocked store.resolve := by
  intro id pattern
  simp only [surroundings]
  cases store.resolve id pattern <;> rfl

/-- What comes of constructing a policy set whose references are resolved in advance by the store of
the world, with the limit of the configuration. -/
def constructEagerly (config : FactoryConfig) (stream : ByteStream) (w : CommandWorld) :
    Except ConstructionError (Artifact Shelf Empty) :=
  answerOf ((({ StandardConstructor.ofConfig config with resolution := .eager }.toConstructor
    surroundings).constructWithResolver .policySet .stocked).on stream w)

/-- Once the set is read, eager construction comes to what its references mean, in order. -/
theorem constructEagerly_eq {config : FactoryConfig} {stream : ByteStream} {d : PolicyDocument}
    {w : CommandWorld}
    (hread : ((StandardConstructor.ofConfig config).readDocument (some .policySet)).on stream = .ok d)
    (hw : w.Numbered) :
    constructEagerly config stream w =
      (((answers w.outside).meanings (some (w.openSource .stocked).1) d.references).mapError
        .resolution).map fun _ => .standard d (some (w.openSource .stocked).1) := by
  have hanswers : surroundings.AnswersIn w.outside .stocked (answers w.outside .stocked) :=
    answersIn_stocked w.outside
  obtain ⟨w', hconstruct⟩ := StandardConstructor.constructResolving_eager
    (c := { StandardConstructor.ofConfig config with resolution := .eager }) rfl hread hw hanswers
  have heager : constructEagerly config stream w = answerOf (outcomeIn _ w') :=
    congrArg answerOf hconstruct
  rw [heager, answerOf_outcomeIn]

/-- Checking the references of a policy set and resolving them in advance come to the same. With a
lazy factory, whenever the set and the documents in the directory can be constructed, the documents
are stocked, and with what is in stock: a report without an unresolved reference is made exactly if
the set can be constructed eagerly; a report has one line for each reference in document order, and
counts those that are no resolutions, the first of which reports the error of eager construction;
and no report is made only where a reference states no pattern, and then eager construction fails
too. -/
theorem checkRefs_agrees {files : Files} {config : FactoryConfig} {factory : CommandFactory}
    {path directory : String} {paths : List String} {stream : ByteStream}
    {a : Artifact Shelf Empty} {w' : CommandWorld}
    (hfactory : Factory.ofConfig surroundings config = .ok factory)
    (hlazy : config.resolution = .lazy) (hpaths : documentPaths files directory = .ok paths)
    (hdocuments : ∀ p ∈ paths, ∃ b v,
      constructFile files factory p .infer (.new .empty) = .ok b v)
    (hstream : files.contents path = .ok stream)
    (hset : factory.createPolicySetWithResolver stream .stocked (.new .empty) = .ok a w') :
    ∃ stocked, loadStore files factory directory (.new .empty) = .ok () stocked ∧
      ∀ w : CommandWorld, w.Numbered → w.outside = stocked.outside →
        ((∃ report, answerOf (checkRefs files factory path directory (.new .empty)) = .ok report ∧
            report.unresolved = 0) ↔
          ∃ b, constructEagerly config stream w = .ok b) ∧
        (∀ report, answerOf (checkRefs files factory path directory (.new .empty)) = .ok report →
          List.Forall₂ (fun r line => ∃ pattern, r.target.pattern = .ok pattern ∧
            line = reportLine r (find stocked.outside r pattern))
            a.document.references report.lines ∧
          report.unresolved = report.lines.countP (fun line => !isOkLine line) ∧
          (report.unresolved ≠ 0 → ∃ before r f after e,
            report.findings = before ++ (r, f) :: after ∧ (∀ g ∈ before, g.2.isResolved) ∧
            f.Reports r e ∧ constructEagerly config stream w = .error (.resolution e))) ∧
        ∀ e, answerOf (checkRefs files factory path directory (.new .empty)) = .error e →
          (∃ r ∈ a.document.references, ∃ fault, r.target.pattern = .error fault ∧
            e = .readingVersion (label r) fault) ∧
          ∃ f, constructEagerly config stream w = .error f := by
  have hactive := Factory.active_of_ofConfig hfactory
  have hmode : (StandardConstructor.ofConfig config).resolution = .lazy := hlazy
  obtain ⟨stocked, hstocked⟩ := stockFiles_lazy hactive hmode hdocuments (.new .empty)
  have hload : loadStore files factory directory (.new .empty) = .ok () stocked := by
    rw [loadStore, hpaths]
    exact hstocked
  rw [Factory.createPolicySetWithResolver, hactive] at hset
  obtain ⟨d, hread, hbuild⟩ := StandardConstructor.constructResolving_eq_ok_iff.1 hset
  obtain ⟨rfl, -⟩ := StandardConstructor.build_eq_ok_iff.1 hbuild
  refine ⟨stocked, hload, fun w hw houtside => ?_⟩
  have hchecked := congrArg answerOf (checkRefs_eq hactive hmode hload hstream hread)
  have heager := constructEagerly_eq hread hw
  rw [answerOf_outcomeIn] at hchecked
  rw [houtside] at heager
  obtain ⟨findings, hexamine, hfinds, hzero, hall⟩ |
    ⟨findings, hexamine, hfinds, hne, before, r, f, after, e, hsplit, hbefore, hreports, hfails⟩ |
    ⟨e, hexamine, hpattern, f, hfails⟩ :=
      examine_cases stocked.outside (w.openSource .stocked).1 d.references
  · rw [hexamine] at hchecked
    rw [hall] at heager
    refine ⟨iff_of_true ⟨_, hchecked, hzero⟩ ⟨_, heager⟩, fun report hreport => ?_, fun e he => ?_⟩
    · obtain rfl := Except.ok.inj (hchecked.symm.trans hreport)
      exact ⟨forall₂_lines hfinds, Report.unresolved_eq_countP_lines _, fun hne => absurd hzero hne⟩
    · cases hchecked.symm.trans he
  · rw [hexamine] at hchecked
    rw [hfails] at heager
    refine ⟨iff_of_false ?_ ?_, fun report hreport => ?_, fun e he => ?_⟩
    · rintro ⟨report, hreport, hzero⟩
      obtain rfl := Except.ok.inj (hchecked.symm.trans hreport)
      exact hne hzero
    · rintro ⟨b, hb⟩
      cases heager.symm.trans hb
    · obtain rfl := Except.ok.inj (hchecked.symm.trans hreport)
      exact ⟨forall₂_lines hfinds, Report.unresolved_eq_countP_lines _,
        fun _ => ⟨before, r, f, after, e, hsplit, hbefore, hreports, heager⟩⟩
    · cases hchecked.symm.trans he
  · rw [hexamine] at hchecked
    rw [hfails] at heager
    refine ⟨iff_of_false ?_ ?_, fun report hreport => ?_, fun e he => ?_⟩
    · rintro ⟨report, hreport, -⟩
      cases hchecked.symm.trans hreport
    · rintro ⟨b, hb⟩
      cases heager.symm.trans hb
    · cases hchecked.symm.trans hreport
    · obtain rfl := Except.error.inj (hchecked.symm.trans he)
      exact ⟨hpattern, _, heager⟩

/-- A set that refers to a policy as if that were a set. -/
def strayingSet : PolicySet :=
  (PolicySet.new "s" "first").withReference .policySet (.new "p")

def strayedPolicy : Policy :=
  Policy.new "p" "a"

def strayedArtifact : Artifact Shelf Empty :=
  .standard (.policy strayedPolicy) (some ⟨.vacant, 0⟩)

/-- The world when the policy is stocked. -/
def strayedWorld : CommandWorld :=
  ⟨[], 1, PolicyStore.empty.afterInsert strayedArtifact⟩

/-- A file with a set, beside a directory with one document. -/
def twoFiles (set document : ByteStream) : Files where
  contents path := .ok (if path = "set.json" then set else document)
  names _ := .ok ["p.json"]

theorem documentPaths_twoFiles (set document : ByteStream) :
    documentPaths (twoFiles set document) "store" = .ok [join "store" "p.json"] := by
  have hjson : isJsonName "p.json" = true := by decide +kernel
  simp [documentPaths, twoFiles, Except.map, hjson]

theorem contents_twoFiles (set document : ByteStream) :
    (twoFiles set document).contents (join "store" "p.json") = .ok document := by
  have hne : join "store" "p.json" ≠ "set.json" := by decide +kernel
  simp only [twoFiles, if_neg hne]

theorem exists_streams_straying :
    ∃ set policy,
      (StandardConstructor.default.readDocument (some .policySet)).on set =
        .ok (.policySet strayingSet) ∧
      (StandardConstructor.default.readDocument none).on policy = .ok (.policy strayedPolicy) := by
  obtain ⟨set, hset⟩ := StandardConstructor.default.exists_readDocument_eq_ok
    (d := .policySet strayingSet) (v := ⟨[1, 0]⟩) (by decide +kernel) rfl (by decide +kernel)
    (by decide +kernel)
  obtain ⟨policy, hpolicy⟩ := StandardConstructor.default.exists_readDocument_eq_ok
    (d := .policy strayedPolicy) (v := ⟨[1, 0]⟩) (by decide +kernel) rfl (by decide +kernel)
    (by decide +kernel)
  exact ⟨set, policy, hset _ (by simp [PolicyDocument.kind]), hpolicy none (by simp)⟩

theorem checkRefs_agrees_strayingSet :
    ∃ files stream,
      files.contents "set.json" = .ok stream ∧
      loadStore files (.new surroundings) "store" (.new .empty) = .ok () strayedWorld ∧
      (∃ report, answerOf (checkRefs files (.new surroundings) "set.json" "store" (.new .empty)) =
        .ok report ∧ report.unresolved = 1) ∧
      constructEagerly .default stream strayedWorld =
        .error (.resolution (.kindMismatch "p" .policySet .policy)) := by
  obtain ⟨set, policy, hset, hpolicy⟩ := exists_streams_straying
  have hfactory : Factory.ofConfig surroundings .default = .ok (.new surroundings) := rfl
  have hdocument : constructFile (twoFiles set policy) (.new surroundings) (join "store" "p.json")
      .infer (.new .empty) = .ok strayedArtifact ⟨[], 1, .empty⟩ :=
    constructFile_infer_eq_ok_iff.2 ⟨policy, contents_twoFiles set policy,
      StandardConstructor.constructResolving_lazy rfl hpolicy surroundings .vacant (.new .empty)⟩
  have hstream : (twoFiles set policy).contents "set.json" = .ok set := rfl
  have hversion : Version.parse strayedArtifact.version = .ok ⟨[1, 0]⟩ := rfl
  have hload : loadStore (twoFiles set policy) (.new surroundings) "store" (.new .empty) =
      .ok () strayedWorld := by
    simp only [loadStore, documentPaths_twoFiles, stockFiles, Bind.bind, EStateM.bind, hdocument,
      stock_eq_ok hversion]
    rfl
  have hconstruct : (Factory.new surroundings).createPolicySetWithResolver set .stocked (.new .empty) =
      .ok (.standard (.policySet strayingSet) (some ⟨.stocked, 0⟩)) ⟨[], 1, .empty⟩ :=
    StandardConstructor.constructResolving_lazy rfl hset surroundings .stocked (.new .empty)
  have hchecked : answerOf (checkRefs (twoFiles set policy) (.new surroundings) "set.json" "store"
      (.new .empty)) = .ok ⟨[(⟨.policySet, .new "p"⟩, .mismatch "p" .policy)]⟩ :=
    congrArg answerOf (checkRefs_eq (c := .default) rfl rfl hload hstream hset)
  obtain ⟨stocked, hstocked, hagree⟩ := checkRefs_agrees hfactory rfl
    (documentPaths_twoFiles set policy)
    (fun p hp => ⟨_, _, List.mem_singleton.1 hp ▸ hdocument⟩) hstream hconstruct
  obtain rfl : strayedWorld = stocked := by
    rw [hload] at hstocked
    cases hstocked
    rfl
  obtain ⟨-, hreport, -⟩ := hagree strayedWorld (fun _ h => nomatch h) rfl
  obtain ⟨-, -, hfirst⟩ := hreport _ hchecked
  obtain ⟨before, r, f, after, e, hsplit, -, hreports, heager⟩ := hfirst (by decide)
  refine ⟨_, set, hstream, hload, ⟨_, hchecked, by decide⟩, ?_⟩
  obtain _ | ⟨g, before⟩ := before
  · obtain ⟨hfound, -⟩ := List.cons.inj hsplit
    obtain ⟨rfl, rfl⟩ := Prod.mk.inj hfound
    cases hreports
    exact heager
  · exact absurd (List.cons.inj hsplit).2 (by simp)

end AccessPolicy.CommandLine
