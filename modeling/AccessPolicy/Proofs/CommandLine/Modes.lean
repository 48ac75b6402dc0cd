import AccessPolicy.Proofs.CommandLine.CheckRefs

namespace AccessPolicy.CommandLine

/-- What becomes of a reference where nothing is stored. -/
def unmet (r : Reference) : ResolutionError :=
  match r.target.pattern with
  | .error e => .invalidVersion e
  | .ok _ => .notFound r.target.value r.target.version

/-- The error that a finding stands for. -/
def Finding.failure? (r : Reference) : Finding → Option ResolutionError
  | .resolved _ _ => none
  | .mismatch _ actual => some (.kindMismatch r.target.value r.kind actual)
  | .missing e => some e

/-- The error of the first reference that is not resolved. -/
def Report.firstFailure? (report : Report) : Option ResolutionError :=
  report.findings.findSome? fun f => f.2.failure? f.1

/-- The first reference in some documents, with the path of the document. -/
def firstReference? (documents : List (String × PolicyDocument)) : Option (String × Reference) :=
  documents.findSome? fun d => d.2.references.head?.map fun r => (d.1, r)

/-- What comes of a report on the set in `path` when construction resolves references: those in the
documents of the directory while nothing is stored, those in the set with what is in stock. -/
def eagerly (documents : List (String × PolicyDocument)) (path : String) (report : Report) :
    Except CommandError Report :=
  match firstReference? documents with
  | some (p, r) => .error (.constructing p (.resolution (unmet r)))
  | none =>
    match report.firstFailure? with
    | some e => .error (.constructing path (.resolution e))
    | none => .ok report

theorem Finding.failure?_eq_none_iff {r : Reference} {f : Finding} :
    f.failure? r = none ↔ f.isResolved := by
  cases f <;> simp [failure?, isResolved]

theorem Report.firstFailure?_eq_none_iff {report : Report} :
    report.firstFailure? = none ↔ report.unresolved = 0 := by
  simp only [firstFailure?, List.findSome?_eq_none_iff, Finding.failure?_eq_none_iff,
    unresolved_eq_zero_iff]

theorem firstReference?_eq_none_iff {documents : List (String × PolicyDocument)} :
    firstReference? documents = none ↔ ∀ d ∈ documents, d.2.references = [] := by
  simp [firstReference?]

theorem firstReference?_cons_of_settled {path : String} {d : PolicyDocument}
    (h : d.references = []) (rest : List (String × PolicyDocument)) :
    firstReference? ((path, d) :: rest) = firstReference? rest := by
  simp [firstReference?, h]

theorem firstReference?_cons_of_refers {path : String} {d : PolicyDocument} {r : Reference}
    {others : List Reference} (h : d.references = r :: others)
    (rest : List (String × PolicyDocument)) :
    firstReference? ((path, d) :: rest) = some (path, r) := by
  simp [firstReference?, h]

/-- Eager checking makes the report that lazy checking makes, if it makes one. -/
theorem eagerly_eq_ok_iff {documents : List (String × PolicyDocument)} {path : String}
    {report answered : Report} :
    eagerly documents path report = .ok answered ↔
      (∀ d ∈ documents, d.2.references = []) ∧ report.unresolved = 0 ∧ report = answered := by
  rw [← firstReference?_eq_none_iff, ← Report.firstFailure?_eq_none_iff, eagerly]
  cases firstReference? documents with
  | some d => simp
  | none => cases report.firstFailure? <;> simp

theorem meaning_empty (source : Source Shelf) (r : Reference) :
    (answers .empty).meaning (some source) r = .error (unmet r) := by
  cases hpattern : r.target.pattern with
  | error e => simp only [Answers.meaning, unmet, hpattern]
  | ok pattern =>
    have hempty : answers .empty source.resolver r.target.value pattern =
        .error (.notFound r.target.value r.target.version) := by
      rw [← IdReference.source_of_pattern hpattern]
      rfl
    simp only [Answers.meaning, unmet, hpattern, hempty]

/-- References that are resolved in advance fail with the first failure of their report. -/
theorem meanings_eq_firstFailure? {store : Store} {rs : List Reference}
    {findings : List (Reference × Finding)} (h : List.Forall₂ (Finds store) rs findings)
    (source : Source Shelf) :
    (answers store).meanings (some source) rs =
      match (Report.mk findings).firstFailure? with
      | some e => .error e
      | none => .ok () := by
  induction h with
  | nil => rfl
  | @cons r g rest findings hfirst _ ih =>
    obtain ⟨pattern, hpattern, rfl⟩ := hfirst
    simp only [Answers.meanings, Report.firstFailure?, List.findSome?_cons] at ih ⊢
    obtain ⟨a, hmeaning, hfound⟩ | ⟨e, hmeaning, hreports⟩ := find_cases store source hpattern
    · rw [hmeaning, hfound]
      exact ih
    · rw [hmeaning]
      generalize find store r pattern = f at hreports
      cases hreports <;> rfl

theorem exists_findings (store : Store) {rs : List Reference}
    (h : ∀ r ∈ rs, ∃ pattern, r.target.pattern = .ok pattern) :
    ∃ findings, examine store rs = .ok findings := by
  cases hexamine : examine store rs with
  | ok findings => exact ⟨findings, rfl⟩
  | error e =>
    obtain ⟨r, hr, fault, hfault, -⟩ := pattern_of_examine hexamine
    obtain ⟨pattern, hpattern⟩ := h r hr
    cases hfault.symm.trans hpattern

theorem answersIn_vacant (store : Store) :
    surroundings.AnswersIn store .vacant (answers .empty .vacant) :=
  fun _ _ => rfl

/-- Whatever shelf of a command is asked, its store stays as it is. -/
theorem exists_lookUp_eq (shelf : Shelf) (id : String) (pattern : Option VersionPattern)
    (store : Store) : ∃ x, surroundings.lookUp shelf id pattern store = outcomeIn x store := by
  cases shelf with
  | vacant => exact ⟨_, answersIn_vacant store id pattern⟩
  | stocked => exact ⟨_, answersIn_stocked store id pattern⟩

theorem outside_resolve (source : Option (Source Shelf)) (r : Reference) (w : CommandWorld) :
    (endState (resolve surroundings source r w)).outside = w.outside := by
  cases source with
  | none => rfl
  | some s =>
    simp only [resolve]
    cases w.remembered? s r.key with
    | some a => rfl
    | none =>
      cases r.target.pattern with
      | error e => rfl
      | ok pattern =>
        obtain ⟨x, hx⟩ := exists_lookUp_eq s.resolver r.target.value pattern w.outside
        simp only [World.ask, hx]
        cases x with
        | error e => rfl
        | ok a =>
          simp only [outcomeIn]
          split <;> rfl

theorem outside_resolveAll {source : Option (Source Shelf)} {rs : List Reference}
    {w w' : CommandWorld} (h : resolveAll surroundings source rs w = .ok () w') :
    w'.outside = w.outside := by
  have hkept : (endState (resolveAll surroundings source rs w)).outside = w.outside :=
    world_of_resolveAll (P := fun v => v.outside = w.outside)
      (fun source r v hv => (outside_resolve source r v).trans hv) rfl
  rw [h] at hkept
  exact hkept

/-- The file holds a document that a standard constructor can read. -/
def FileHolds (files : Files) (c : StandardConstructor) (path : String) (d : PolicyDocument) :
    Prop :=
  ∃ stream, files.contents path = .ok stream ∧ (c.readDocument none).on stream = .ok d

section

variable {files : Files} {c : StandardConstructor} {factory : ResolutionMode → CommandFactory}
  (hactive : ∀ mode, (factory mode).active =
    { c with resolution := mode }.toConstructor surroundings)

include hactive

/-- Files whose documents are constructed hold documents. -/
theorem exists_documents {mode : ResolutionMode} {paths : List String} {w : CommandWorld}
    (h : ∀ p ∈ paths, ∃ b v, constructFile files (factory mode) p .infer w = .ok b v) :
    ∃ documents : List (String × PolicyDocument), documents.map Prod.fst = paths ∧
      ∀ e ∈ documents, FileHolds files c e.1 e.2 := by
  induction paths with
  | nil => exact ⟨[], rfl, List.forall_mem_nil _⟩
  | cons path rest ih =>
    obtain ⟨⟨b, v, hfirst⟩, hrest⟩ := List.forall_mem_cons.1 h
    obtain ⟨documents, rfl, hdocuments⟩ := ih hrest
    obtain ⟨stream, hstream, hcreate⟩ := constructFile_infer_eq_ok_iff.1 hfirst
    rw [Factory.create, hactive] at hcreate
    obtain ⟨d, hread, -⟩ := StandardConstructor.constructResolving_eq_ok_iff.1 hcreate
    exact ⟨(path, d) :: documents, rfl, List.forall_mem_cons.2 ⟨⟨stream, hstream, hread⟩, hdocuments⟩⟩

/-- A document without references is constructed alike in both modes. -/
theorem constructFile_settled {mode : ResolutionMode} {path : String} {d : PolicyDocument}
    (h : FileHolds files c path d) (hmode : mode = .lazy ∨ d.references = []) (w : CommandWorld) :
    constructFile files (factory mode) path .infer w =
      .ok (.standard d (some (w.openSource .vacant).1)) (w.openSource .vacant).2 := by
  obtain ⟨stream, hstream, hread⟩ := h
  refine constructFile_infer_eq_ok_iff.2 ⟨stream, hstream, ?_⟩
  rw [Factory.create, hactive]
  refine StandardConstructor.constructResolving_eq_ok_iff.2 ⟨d, hread, ?_⟩
  refine StandardConstructor.build_eq_ok_iff.2 ⟨rfl, ?_⟩
  cases mode with
  | lazy => rfl
  | eager =>
    have hnone : d.references = [] := hmode.resolve_left (by decide)
    simp only [hnone]
    rfl

/-- An eager factory refuses a document with references, since nothing is found for the first. -/
theorem constructFile_refused {path : String} {d : PolicyDocument} {r : Reference}
    {rest : List Reference} {w : CommandWorld} (h : FileHolds files c path d)
    (hrefers : d.references = r :: rest) (hw : w.Numbered) :
    ∃ w', constructFile files (factory .eager) path .infer w =
      .error (.constructing path (.resolution (unmet r))) w' := by
  obtain ⟨stream, hstream, hread⟩ := h
  obtain ⟨w', hconstruct⟩ := StandardConstructor.constructResolving_eager
    (c := { c with resolution := .eager }) rfl hread hw (answersIn_vacant w.outside)
  refine ⟨w', ?_⟩
  rw [hrefers, Answers.meanings, meaning_empty] at hconstruct
  have hcreate : (factory .eager).create stream .vacant w =
      .error (.resolution (unmet r)) w' := by
    rw [Factory.create, hactive]
    exact hconstruct
  simp only [constructFile, openFile, hstream, Bind.bind, EStateM.bind, constructing,
    EStateM.adaptExcept, hcreate, pure, EStateM.pure]

/-- A lazy factory stocks the documents of a directory, and an eager one stocks the same unless one
of them has a reference. -/
theorem stockFiles_modes {documents : List (String × PolicyDocument)}
    (h : ∀ d ∈ documents, FileHolds files c d.1 d.2) {w : CommandWorld} (hw : w.Numbered) :
    ∃ stocked, stocked.Numbered ∧
      stockFiles files (factory .lazy) (documents.map Prod.fst) w = .ok () stocked ∧
      match firstReference? documents with
      | none => stockFiles files (factory .eager) (documents.map Prod.fst) w = .ok () stocked
      | some (p, r) => ∃ w', stockFiles files (factory .eager) (documents.map Prod.fst) w =
          .error (.constructing p (.resolution (unmet r))) w' := by
  induction documents generalizing w with
  | nil => exact ⟨w, hw, rfl, rfl⟩
  | cons first rest ih =>
    obtain ⟨path, d⟩ := first
    obtain ⟨hfirst, hrest⟩ := List.forall_mem_cons.1 h
    have ⟨stream, _, hread⟩ := hfirst
    obtain ⟨version, hversion⟩ := StandardConstructor.exists_version_of_readDocument hread
    let a : Artifact Shelf Empty := .standard d (some (w.openSource .vacant).1)
    let v : CommandWorld := { (w.openSource .vacant).2 with
      outside := w.outside.afterInsert a }
    have hparsed : Version.parse a.version = .ok version := hversion
    have hstock : stock a (w.openSource .vacant).2 = .ok () v := stock_eq_ok hparsed _
    obtain ⟨stocked, hnumbered, hlazily, heagerly⟩ :=
      ih hrest (w := v) (hw.openSource .vacant)
    have hstep {mode : ResolutionMode} (hmode : mode = .lazy ∨ d.references = []) :
        stockFiles files (factory mode) (path :: rest.map Prod.fst) w =
          stockFiles files (factory mode) (rest.map Prod.fst) v := by
      simp only [stockFiles, Bind.bind, EStateM.bind, constructFile_settled hactive hfirst hmode w,
        a, hstock]
    refine ⟨stocked, hnumbered, (hstep (.inl rfl)).trans hlazily, ?_⟩
    cases hreferences : d.references with
    | nil =>
      rw [firstReference?_cons_of_settled hreferences, List.map_cons, hstep (.inr hreferences)]
      exact heagerly
    | cons r others =>
      rw [firstReference?_cons_of_refers hreferences]
      obtain ⟨w', hrefused⟩ := constructFile_refused hactive hfirst hreferences hw
      refine ⟨w', ?_⟩
      simp only [List.map_cons, stockFiles, Bind.bind, EStateM.bind, hrefused]

/-- Once the documents are stocked, an eager factory makes the report on the set or fails with what
the report finds first. -/
theorem checkRefs_eager_stocked {path directory : String} {stream : ByteStream} {d : PolicyDocument}
    {findings : List (Reference × Finding)} {w stocked : CommandWorld} (hstocked : stocked.Numbered)
    (hload : loadStore files (factory .eager) directory w = .ok () stocked)
    (hstream : files.contents path = .ok stream)
    (hread : (c.readDocument (some .policySet)).on stream = .ok d)
    (hexamine : examine stocked.outside d.references = .ok findings) :
    answerOf (checkRefs files (factory .eager) path directory w) =
      match (Report.mk findings).firstFailure? with
      | some e => .error (.constructing path (.resolution e))
      | none => .ok ⟨findings⟩ := by
  have hanswers : surroundings.AnswersIn stocked.outside .stocked
      (answers stocked.outside .stocked) := answersIn_stocked stocked.outside
  obtain ⟨w', hconstruct⟩ := StandardConstructor.constructResolving_eager
    (c := { c with resolution := .eager }) rfl hread hstocked hanswers
  have hoperation : (factory .eager).createPolicySetWithResolver stream .stocked stocked =
      ({ c with resolution := .eager }.constructResolving surroundings (some .policySet) .stocked).on
        stream stocked := by
    rw [Factory.createPolicySetWithResolver, hactive]
    rfl
  rw [meanings_eq_firstFailure? (forall₂_of_examine hexamine), ← hoperation] at hconstruct
  cases hfailure : (Report.mk findings).firstFailure? with
  | some e =>
    rw [hfailure] at hconstruct
    have hopen : openFile files path stocked = .ok stream stocked := by
      rw [openFile, hstream]
      rfl
    have hrefused : constructing path
        ((factory .eager).createPolicySetWithResolver stream .stocked) stocked =
          .error (.constructing path (.resolution e)) w' := by
      rw [constructing, EStateM.adaptExcept, hconstruct]
      rfl
    simp only [checkRefs, Bind.bind, EStateM.bind, hload, hopen, hrefused]
    rfl
  | none =>
    rw [hfailure] at hconstruct
    have houtside : w'.outside = stocked.outside := by
      obtain ⟨d', -, hbuild⟩ :=
        StandardConstructor.constructResolving_eq_ok_iff.1 (hoperation.symm.trans hconstruct)
      have hresolved : resolveAll surroundings _ d'.references _ = .ok () w' :=
        (StandardConstructor.build_eq_ok_iff.1 hbuild).2
      exact (outside_resolveAll hresolved).trans rfl
    rw [checkRefs_of_set hload hstream hconstruct, houtside, Artifact.document, hexamine]
    rfl

/-- The report of a lazy factory, and what an eager one makes of it. -/
theorem checkRefs_modes {documents : List (String × PolicyDocument)} {path directory : String}
    {stream : ByteStream} {d : PolicyDocument}
    (hlisted : documentPaths files directory = .ok (documents.map Prod.fst))
    (hdocuments : ∀ e ∈ documents, FileHolds files c e.1 e.2)
    (hstream : files.contents path = .ok stream)
    (hread : (c.readDocument (some .policySet)).on stream = .ok d)
    (hpatterns : ∀ r ∈ d.references, ∃ pattern, r.target.pattern = .ok pattern) :
    ∃ stocked findings,
      loadStore files (factory .lazy) directory (.new .empty) = .ok () stocked ∧
      List.Forall₂ (Finds stocked.outside) d.references findings ∧
      answerOf (checkRefs files (factory .lazy) path directory (.new .empty)) = .ok ⟨findings⟩ ∧
      answerOf (checkRefs files (factory .eager) path directory (.new .empty)) =
        eagerly documents path ⟨findings⟩ := by
  obtain ⟨stocked, hnumbered, hlazily, heagerly⟩ :=
    stockFiles_modes hactive hdocuments (World.numbered_new PolicyStore.empty)
  have hload {mode : ResolutionMode} : loadStore files (factory mode) directory =
      stockFiles files (factory mode) (documents.map Prod.fst) := by
    rw [loadStore, hlisted]
  obtain ⟨findings, hexamine⟩ := exists_findings stocked.outside hpatterns
  refine ⟨stocked, findings, by rw [hload, hlazily], forall₂_of_examine hexamine, ?_, ?_⟩
  · rw [checkRefs_eq (hactive .lazy) rfl (by rw [hload, hlazily]) hstream hread, hexamine]
    rfl
  · unfold eagerly
    split at heagerly
    · next hnone =>
      rw [hnone]
      exact checkRefs_eager_stocked hactive hnumbered (by rw [hload, heagerly]) hstream hread
        hexamine
    · next p r hsome =>
      obtain ⟨w', hrefused⟩ := heagerly
      rw [hsome]
      simp only [checkRefs, Bind.bind, EStateM.bind, hload, hrefused]
      rfl

end

/-- The mode of resolution decides whether a report is made. With a configuration for the standard
constructor, whenever a lazy factory can construct the set and the documents in the directory and
the references of the set state patterns or none, a lazy factory makes a report with one line for
each reference. An eager factory makes the same report exactly if no document in the directory has a
reference and every reference of the set is resolved; otherwise it fails to construct the first
document that has one, or else the set, by the first reference there that does not resolve. -/
theorem checkRefs_in_modes {files : Files} {config : FactoryConfig}
    {factory : ResolutionMode → CommandFactory} {path directory : String} {paths : List String}
    {stream : ByteStream} {a : Artifact Shelf Empty} {w' : CommandWorld}
    (hfactory : ∀ mode,
      Factory.ofConfig surroundings { config with resolution := mode } = .ok (factory mode))
    (hpaths : documentPaths files directory = .ok paths)
    (hdocuments : ∀ p ∈ paths, ∃ b v,
      constructFile files (factory .lazy) p .infer (.new .empty) = .ok b v)
    (hstream : files.contents path = .ok stream)
    (hset : (factory .lazy).createPolicySetWithResolver stream .stocked (.new .empty) = .ok a w')
    (hpatterns : ∀ r ∈ a.document.references, ∃ pattern, r.target.pattern = .ok pattern) :
    ∃ stocked documents report,
      loadStore files (factory .lazy) directory (.new .empty) = .ok () stocked ∧
      documents.map Prod.fst = paths ∧
      (∀ e ∈ documents, ∃ b v,
        constructFile files (factory .lazy) e.1 .infer (.new .empty) = .ok b v ∧
          b.document = e.2) ∧
      answerOf (checkRefs files (factory .lazy) path directory (.new .empty)) = .ok report ∧
      List.Forall₂ (fun r line => ∃ pattern, r.target.pattern = .ok pattern ∧
        line = reportLine r (find stocked.outside r pattern)) a.document.references report.lines ∧
      answerOf (checkRefs files (factory .eager) path directory (.new .empty)) =
        eagerly documents path report ∧
      ∀ answered, eagerly documents path report = .ok answered ↔
        (∀ e ∈ documents, e.2.references = []) ∧ report.unresolved = 0 ∧ report = answered := by
  let c := StandardConstructor.ofConfig config
  have hactive (mode : ResolutionMode) : (factory mode).active =
      { c with resolution := mode }.toConstructor surroundings :=
    Factory.active_of_ofConfig (hfactory mode)
  obtain ⟨documents, rfl, hheld⟩ := exists_documents hactive hdocuments
  rw [Factory.createPolicySetWithResolver, hactive] at hset
  obtain ⟨d, hread, hbuild⟩ := StandardConstructor.constructResolving_eq_ok_iff.1 hset
  obtain ⟨rfl, -⟩ := StandardConstructor.build_eq_ok_iff.1 hbuild
  obtain ⟨stocked, findings, hload, hfinds, hlazily, heagerly⟩ :=
    checkRefs_modes hactive hpaths hheld hstream hread hpatterns
  refine ⟨stocked, documents, ⟨findings⟩, hload, rfl, fun e he => ?_, hlazily,
    forall₂_lines hfinds, heagerly, fun answered => eagerly_eq_ok_iff⟩
  exact ⟨_, _, constructFile_settled hactive (hheld e he) (.inl rfl) _, rfl⟩

/-- The default factory in a mode. -/
def factoryIn (mode : ResolutionMode) : CommandFactory :=
  let c : StandardConstructor := { StandardConstructor.default with resolution := mode }
  ⟨.withStandard surroundings c, c.toConstructor surroundings⟩

theorem ofConfig_factoryIn (mode : ResolutionMode) :
    Factory.ofConfig surroundings { FactoryConfig.default with resolution := mode } =
      .ok (factoryIn mode) := by
  cases mode <;> rfl

/-- A set that is found under the name that the straying set refers to, and refers to a policy. -/
def referringSet : PolicySet :=
  (PolicySet.new "p" "first").withReference .policy (.new "q")

/-- The only reference is resolved, and yet eager checking fails, because the set that it resolves
to has a reference itself. -/
theorem checkRefs_in_modes_referringSet :
    ∃ files : Files, documentPaths files "store" = .ok [join "store" "p.json"] ∧
      (∃ report, answerOf (checkRefs files (factoryIn .lazy) "set.json" "store" (.new .empty)) =
        .ok report ∧ report.lines.length = 1) ∧
      answerOf (checkRefs files (factoryIn .eager) "set.json" "store" (.new .empty)) =
        .error (.constructing (join "store" "p.json") (.resolution (.notFound "q" none))) := by
  obtain ⟨set, hset⟩ := StandardConstructor.default.exists_readDocument_eq_ok
    (d := .policySet strayingSet) (v := ⟨[1, 0]⟩) (by decide +kernel) rfl (by decide +kernel)
    (by decide +kernel)
  obtain ⟨stored, hstored⟩ := StandardConstructor.default.exists_readDocument_eq_ok
    (d := .policySet referringSet) (v := ⟨[1, 0]⟩) (by decide +kernel) rfl (by decide +kernel)
    (by decide +kernel)
  have hread := hset (some .policySet) (by simp [PolicyDocument.kind])
  have hdocument : constructFile (twoFiles set stored) (factoryIn .lazy) (join "store" "p.json")
      .infer (.new .empty) = .ok (.standard (.policySet referringSet) (some ⟨.vacant, 0⟩))
        ⟨[], 1, .empty⟩ :=
    constructFile_infer_eq_ok_iff.2 ⟨stored, contents_twoFiles set stored,
      StandardConstructor.constructResolving_lazy rfl (hstored none (by simp)) surroundings .vacant
        (.new .empty)⟩
  have hconstruct : (factoryIn .lazy).createPolicySetWithResolver set .stocked (.new .empty) =
      .ok (.standard (.policySet strayingSet) (some ⟨.stocked, 0⟩)) ⟨[], 1, .empty⟩ :=
    StandardConstructor.constructResolving_lazy rfl hread surroundings .stocked (.new .empty)
  have hstream : (twoFiles set stored).contents "set.json" = .ok set := rfl
  have hpatterns : ∀ r ∈ (PolicyDocument.policySet strayingSet).references,
      ∃ pattern, r.target.pattern = .ok pattern := by
    intro r hr
    obtain rfl : r = ⟨.policySet, .new "p"⟩ := List.mem_singleton.1 hr
    exact ⟨none, rfl⟩
  obtain ⟨stocked, documents, report, -, hpaths, hdocuments, hlazily, hlines, heagerly, -⟩ :=
    checkRefs_in_modes ofConfig_factoryIn (documentPaths_twoFiles set stored)
      (fun p hp => ⟨_, _, List.mem_singleton.1 hp ▸ hdocument⟩) hstream hconstruct hpatterns
  refine ⟨twoFiles set stored, documentPaths_twoFiles set stored,
    ⟨report, hlazily, hlines.length_eq.symm⟩, ?_⟩
  obtain ⟨⟨path, d⟩, rfl, rfl⟩ := List.map_eq_singleton_iff.1 hpaths
  obtain ⟨b, v, hconstructed, rfl⟩ := hdocuments _ List.mem_cons_self
  cases hdocument.symm.trans hconstructed
  exact heagerly

/-- A set that refers to a policy, the directory being empty. -/
def lonelySet : PolicySet :=
  (PolicySet.new "s" "first").withReference .policy (.new "p")

/-- Of a set whose only reference is missing, a lazy factory reports that it is; an eager one fails
to construct the set and reports nothing. -/
theorem missing_reference_unreported :
    ∃ files : Files, documentPaths files "store" = .ok [] ∧
      answerOf (checkRefs files (factoryIn .lazy) "set.json" "store" (.new .empty)) =
        .ok ⟨[(⟨.policy, .new "p"⟩, .missing (.notFound "p" none))]⟩ ∧
      answerOf (checkRefs files (factoryIn .eager) "set.json" "store" (.new .empty)) =
        .error (.constructing "set.json" (.resolution (.notFound "p" none))) := by
  obtain ⟨set, hset⟩ := StandardConstructor.default.exists_readDocument_eq_ok
    (d := .policySet lonelySet) (v := ⟨[1, 0]⟩) (by decide +kernel) rfl (by decide +kernel)
    (by decide +kernel)
  have hread := hset (some .policySet) (by simp [PolicyDocument.kind])
  let files : Files := ⟨fun _ => .ok set, fun _ => .ok []⟩
  have hlisted : documentPaths files "store" = .ok [] := by
    simp [documentPaths, files, Except.map]
  have hload (mode : ResolutionMode) :
      loadStore files (factoryIn mode) "store" (.new .empty) = .ok () (.new .empty) := by
    rw [loadStore, hlisted]
    rfl
  have hexamine : examine .empty (PolicyDocument.policySet lonelySet).references =
      .ok [(⟨.policy, .new "p"⟩, .missing (.notFound "p" none))] := rfl
  refine ⟨files, hlisted, ?_, ?_⟩
  · rw [checkRefs_eq (c := .default) rfl rfl (hload .lazy) rfl hread]
    rfl
  · rw [checkRefs_eager_stocked (c := .default) (fun _ => rfl) (World.numbered_new PolicyStore.empty)
      (hload .eager) rfl hread hexamine]
    rfl

end AccessPolicy.CommandLine
