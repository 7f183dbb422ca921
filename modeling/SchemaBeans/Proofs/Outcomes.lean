import SchemaBeans.Proofs.Delivery
import SchemaBeans.Proofs.Located

/-!
# What becomes of the documents of a run

Each stage of a run splits what it gets: documents into models and problems, models
into those that are kept and those that are rejected. A kept model has a unit that is
written. So every document that was found has either a written unit or one problem,
and the counts of a report add up.
-/

namespace SchemaBeans

/-- The number of problems of a kind. -/
def Report.countOf (report : Report) (kind : String) : Nat :=
  report.problems.countP fun problem => problem.kind = kind

/-- Sorting loses no problem and adds none. -/
theorem Problem.perm_sorted (problems : List Problem) : (Problem.sorted problems).Perm problems :=
  List.mergeSort_perm _ _

namespace Generation

/-- A path is the place below the output directory for the unit of a document's model. -/
def IsUnitPath (files : FileSystem) (settings : Settings) (file : SchemaFile) (path : Path) :
    Prop :=
  ∃ model, file.load files = .ok model ∧
    path = settings.outputDir.join (Bean.pathOf settings.basePackage model)

/-- A problem is that of a document: the error of loading it, or a rejection of its model. -/
structure IsFailed (files : FileSystem) (file : SchemaFile) (problem : Problem) : Prop where
  schema : problem.schema = file.path
  load_iff : ∀ error, problem.cause = .load error ↔ file.load files = .error error

/-- A report accounts for the documents of a discovery. -/
structure AccountsFor (files : FileSystem) (settings : Settings) (discovery : Discovery)
    (report : Report) : Prop where
  discovered : report.discovered = discovery.files.length
  loaded : report.discovered = report.loaded + report.countOf "parse"
  generated : report.loaded =
    report.generated + report.countOf "collision" + report.countOf "type resolution"
  written : report.written.length = report.generated
  ordered : report.problems.Pairwise fun left right => left.schema.compare right.schema = .lt
  located : ∀ problem ∈ report.problems, ∃ file ∈ discovery.files, problem.schema = file.path
  isSuccess_iff : report.isSuccess = true ↔ report.generated = report.discovered
  /-- The documents are those with a unit, in the order of the written paths, and those with a
  problem, in the order of the problems. -/
  outcomes : ∃ done failed : List SchemaFile, (done ++ failed).Perm discovery.files ∧
    List.Forall₂ (IsUnitPath files settings) done report.written ∧
    List.Forall₂ (IsFailed files) failed report.problems

variable {files : FileSystem} {discovery : Discovery} {loading : Loading} {settings : Settings}
  {options : EmitOptions} {host after : Host}

section Stages

/-- The documents whose loading fails. -/
def unloaded (files : FileSystem) (documents : List SchemaFile) : List SchemaFile :=
  documents.filter fun file => !(file.load files).isOk

/-- Documents are loaded, or their loading fails. -/
theorem perm_loadingOf (files : FileSystem) (discovery : Discovery) :
    ((loadingOf files discovery).models.map Prod.fst ++ unloaded files discovery.files).Perm
      discovery.files := by
  have loaded : (loadingOf files discovery).models.map Prod.fst =
      discovery.files.filter fun file => (file.load files).isOk := by
    simp only [loadingOf, Loading.modelsOf]
    induction discovery.files with
    | nil => rfl
    | cons file rest hypothesis =>
        rw [List.map_cons, List.filterMap_cons, List.filter_cons, ← hypothesis]
        cases file.load files <;> rfl
  rw [loaded]
  exact List.filter_append_perm _ _

/-- The loaded models are those that their documents give. -/
theorem load_of_mem_models {file : SchemaFile} {model : Model}
    (listed : (file, model) ∈ (loadingOf files discovery).models) :
    file.load files = .ok model := by
  obtain ⟨outcome, among, chosen⟩ := List.mem_filterMap.mp listed
  obtain ⟨document, _, rfl⟩ := List.mem_map.mp among
  dsimp only at chosen
  split at chosen <;> cases chosen
  assumption

/-- Each document whose loading fails has a problem. -/
theorem forall₂_unloaded (files : FileSystem) (discovery : Discovery) :
    List.Forall₂ (IsFailed files) (unloaded files discovery.files)
      (loadingOf files discovery).problems := by
  simp only [loadingOf, unloaded, Loading.problemsOf]
  induction discovery.files with
  | nil => exact .nil
  | cons file rest hypothesis =>
      rw [List.map_cons, List.filterMap_cons, List.filter_cons]
      cases failed : file.load files with
      | ok model => exact hypothesis
      | error error =>
          refine .cons ⟨rfl, ?_⟩ hypothesis
          intro other
          rw [failed, Cause.load.injEq, Except.error.injEq]

/-- The loaded models at some positions, with their documents. -/
def modelsAt (loading : Loading) (positions : List Nat) : List (SchemaFile × Model) :=
  positions.filterMap (loading.models[·]?)

/-- All positions together have all models. -/
theorem modelsAt_range (loading : Loading) :
    modelsAt loading (List.range loading.models.length) = loading.models := by
  have each : (List.range loading.models.length).map (loading.models[·]?) =
      loading.models.map some := List.ext_getElem (by simp) (by simp)
  have whole := congrArg (List.filterMap id) each
  rwa [List.filterMap_map, List.filterMap_map, Function.id_comp, Function.id_comp,
    List.filterMap_some] at whole

/-- Loaded models are kept or rejected. -/
theorem perm_modelsAt (loading : Loading) :
    (modelsAt loading ((Plan.ofLoading loading).analysis.kept.map Prod.fst) ++
      modelsAt loading ((Plan.ofLoading loading).analysis.rejected.map Prod.fst)).Perm
        loading.models := by
  have counted := (Analysis.perm_ofModels (loading.models.map Prod.snd)).filterMap
    (loading.models[·]?)
  rw [List.filterMap_append, List.length_map] at counted
  exact counted.trans (.of_eq (modelsAt_range loading))

/-- Lists of what is found for the elements of a list are related if the finds are. -/
theorem forall₂_filterMap {α β γ : Type} {relation : β → γ → Prop} {f : α → Option β}
    {g : α → Option γ} {elements : List α}
    (each : ∀ element ∈ elements, ∃ one other, f element = some one ∧ g element = some other ∧
      relation one other) :
    List.Forall₂ relation (elements.filterMap f) (elements.filterMap g) := by
  induction elements with
  | nil => exact .nil
  | cons element elements hypothesis =>
      obtain ⟨⟨one, other, found, foundToo, related⟩, each⟩ := List.forall_mem_cons.mp each
      rw [List.filterMap_cons_some found, List.filterMap_cons_some foundToo]
      exact .cons related (hypothesis each)

/-- Each rejected model has a problem. -/
theorem forall₂_rejections (files : FileSystem) (discovery : Discovery) :
    List.Forall₂ (fun entry problem => IsFailed files entry.1 problem)
      (modelsAt (loadingOf files discovery)
        ((Plan.ofLoading (loadingOf files discovery)).analysis.rejected.map Prod.fst))
      (Plan.ofLoading (loadingOf files discovery)).rejections := by
  rw [modelsAt, List.filterMap_map, Plan.rejections]
  refine forall₂_filterMap fun entry rejected => ?_
  have bound : entry.1 < (loadingOf files discovery).models.length := by
    simpa using Analysis.lt_of_rejected rejected
  obtain ⟨⟨file, model⟩, there⟩ : ∃ loaded, (loadingOf files discovery).models[entry.1]? =
      some loaded := ⟨_, List.getElem?_eq_getElem bound⟩
  refine ⟨(file, model), ⟨file.path, .rejected entry.2⟩, there, ?_, rfl, ?_⟩
  · simp [Plan.rejection?, Plan.ofLoading, there]
  · simp [load_of_mem_models (List.mem_of_getElem? there)]

/-- Each kept model has a unit that is written. -/
theorem forall₂_kept (files : FileSystem) (discovery : Discovery) (settings : Settings) :
    List.Forall₂ (fun entry path => IsUnitPath files settings entry.1 path)
      (modelsAt (loadingOf files discovery)
        ((Plan.ofLoading (loadingOf files discovery)).analysis.kept.map Prod.fst))
      ((Plan.ofLoading (loadingOf files discovery)).analysis.kept.map fun entry =>
        settings.outputDir.join (Bean.pathOf settings.basePackage entry.2)) := by
  rw [modelsAt, List.filterMap_map, ← List.filterMap_eq_map]
  refine forall₂_filterMap fun entry kept => ?_
  have there := (Analysis.accounts _).kept_models entry kept
  rw [List.getElem?_map] at there
  obtain ⟨⟨file, model⟩, found, same⟩ := Option.map_eq_some_iff.mp there
  obtain rfl : model = entry.2 := same
  exact ⟨(file, entry.2), _, found, rfl, entry.2, load_of_mem_models (List.mem_of_getElem? found),
    rfl⟩

end Stages

section Writing

variable {index : Index} {root : Path} {kept : List Numbered} {units : List SourceUnit}
  {outcomes : List Emitted} {results : List (Nat × Except WriteError Emitted)}

/-- Units that are all written have no unresolved references. -/
theorem unresolvedOf_zip (loading : Loading) (kept : List Numbered) (units : List SourceUnit)
    (root : Path) :
    unresolvedOf loading (kept.zip (units.map fun unit => .ok ⟨unit, unit.target root⟩)) = [] := by
  refine List.filterMap_eq_nil_iff.mpr ?_
  rintro ⟨entry, outcome⟩ inside
  obtain ⟨unit, _, rfl⟩ := List.mem_map.mp (List.of_mem_zip inside).2
  rfl

/-- The report on the documents of a discovery: the kept models have units, and the other documents
have problems. -/
def reportOf (files : FileSystem) (settings : Settings) (discovery : Discovery) : Report :=
  let made := Plan.ofLoading (loadingOf files discovery)
  { discovered := discovery.files.length
    loaded := made.loading.models.length
    generated := made.analysis.kept.length
    written := made.analysis.kept.map fun entry =>
      settings.outputDir.join (Bean.pathOf settings.basePackage entry.2)
    problems := Problem.sorted (made.loading.problems ++ made.rejections)
    warnings := discovery.warnings }

/-- A pool that has worked on all kept models has written a unit for each of them, and found no
further problems. -/
theorem report_of_finished (package : options.basePackage = settings.basePackage)
    (finished : Pool.Finished
      (task options (Plan.ofLoading (loadingOf files discovery)).analysis.index settings.outputDir)
      (Plan.ofLoading (loadingOf files discovery)).analysis.kept host results (outcomes.map .ok)
      after) :
    report (.ofLoading (loadingOf files discovery))
        ((Plan.ofLoading (loadingOf files discovery)).analysis.kept.zip outcomes) =
      reportOf files settings discovery := by
  obtain ⟨units, mapped⟩ := exists_mapM_eq_ok fun entry kept =>
    @Bean.exists_emit_of_kept ((loadingOf files discovery).models.map Prod.snd) entry options kept
  have emitted := forall₂_of_mapM_eq_ok mapped
  obtain rfl := outcomes_of_finished emitted finished
  have targets : (Plan.ofLoading (loadingOf files discovery)).analysis.kept.map (fun entry =>
      settings.outputDir.join (Bean.pathOf settings.basePackage entry.2)) =
        units.map fun unit => unit.target settings.outputDir := by
    refine map_eq_map_of_forall₂ (emitted.imp fun entry unit written => ?_)
    rw [SourceUnit.target, (Bean.unit_of_emit written).2.2, package]
  rw [report, reportOf, targets, unresolvedOf_zip, List.append_nil]
  have length : (Plan.ofLoading (loadingOf files discovery)).analysis.kept.length = units.length :=
    emitted.length_eq
  rw [writtenOf_zip length, List.length_map, List.map_map, length]
  rfl

/-- The report of a run is the same under every schedule of its workers. -/
theorem exists_reportOf_of_run {schedule : Schedule} {registrar : Registrar} {later : Host}
    {result : Report} (ran : run schedule registrar settings host = (.ok result, later)) :
    ∃ discovery log,
      Discovery.ofQuery host.files ⟨settings.schemaRoot, schemaExtensions⟩ = (.ok discovery, log) ∧
      result = reportOf host.files settings discovery := by
  unfold run at ran
  split at ran
  · cases ran
  · next options chosen =>
      split at ran
      · cases ran
      · next made between planned =>
          obtain ⟨discovery, log, found, rfl, _⟩ := exists_discovery_of_plan planned
          obtain ⟨_, outcomes, results, after, _, finished, ended⟩ :=
            exists_finished_of_writeAll ran
          have package : options.basePackage = settings.basePackage := by
            unfold Settings.emitOptions at chosen
            split at chosen <;> cases chosen
            rfl
          refine ⟨discovery, log, found, ?_⟩
          exact (congrArg Prod.fst ended).symm.trans (report_of_finished package finished)

end Writing

section Counts

/-- Every problem is of one kind. -/
theorem length_eq_countP (problems : List Problem) :
    problems.length = problems.countP (fun problem => problem.kind = "parse") +
      problems.countP (fun problem => problem.kind = "collision") +
      problems.countP (fun problem => problem.kind = "type resolution") := by
  induction problems with
  | nil => rfl
  | cons problem problems hypothesis =>
      have one : problem.kind = "parse" ∨ problem.kind = "collision" ∨
          problem.kind = "type resolution" := by
        unfold Problem.kind
        split <;> simp
      rw [List.length_cons, hypothesis, List.countP_cons, List.countP_cons, List.countP_cons]
      rcases one with kind | kind | kind <;> simp [kind] <;> omega

/-- What goes wrong in loading is reported as a parse error. -/
theorem kind_of_mem_problems {problem : Problem}
    (listed : problem ∈ (loadingOf files discovery).problems) : problem.kind = "parse" := by
  obtain ⟨⟨file, result⟩, _, chosen⟩ := List.mem_filterMap.mp listed
  cases result <;> cases chosen
  rfl

/-- What is rejected is not reported as a parse error. -/
theorem kind_of_mem_rejections {problem : Problem}
    (listed : problem ∈ (Plan.ofLoading loading).rejections) : problem.kind ≠ "parse" := by
  obtain ⟨⟨position, rejection⟩, _, chosen⟩ := List.mem_filterMap.mp listed
  obtain ⟨_, _, rfl⟩ := Option.map_eq_some_iff.mp chosen
  cases rejection <;> simp [Problem.kind]

/-- The counts of problems tell which stage the documents came to. -/
theorem countOf_reportOf (files : FileSystem) (settings : Settings) (discovery : Discovery) :
    (reportOf files settings discovery).countOf "parse" =
        (loadingOf files discovery).problems.length ∧
      (reportOf files settings discovery).countOf "collision" +
          (reportOf files settings discovery).countOf "type resolution" =
        (Plan.ofLoading (loadingOf files discovery)).rejections.length := by
  have sorted := Problem.perm_sorted ((loadingOf files discovery).problems ++
    (Plan.ofLoading (loadingOf files discovery)).rejections)
  have parse : (reportOf files settings discovery).countOf "parse" =
      (loadingOf files discovery).problems.length := by
    have failed : (loadingOf files discovery).problems.countP (fun problem =>
        problem.kind = "parse") = (loadingOf files discovery).problems.length :=
      List.countP_eq_length.mpr fun problem listed => by simpa using kind_of_mem_problems listed
    have rejected : (Plan.ofLoading (loadingOf files discovery)).rejections.countP (fun problem =>
        problem.kind = "parse") = 0 :=
      List.countP_eq_zero.mpr fun problem listed => by simpa using kind_of_mem_rejections listed
    exact (sorted.countP_eq _).trans (by rw [List.countP_append, failed, rejected, Nat.add_zero])
  have all := length_eq_countP (reportOf files settings discovery).problems
  have length := sorted.length_eq
  rw [List.length_append] at length
  refine ⟨parse, ?_⟩
  unfold Report.countOf at parse ⊢
  change (reportOf files settings discovery).problems.length = _ at length
  omega

/-- Each model is kept or has a problem. -/
theorem length_kept_add (loading : Loading) :
    (Plan.ofLoading loading).analysis.kept.length + (Plan.ofLoading loading).rejections.length =
      loading.models.length := by
  have split := (Analysis.perm_ofModels (loading.models.map Prod.snd)).length_eq
  have reported := congrArg List.length (Plan.map_some_rejections loading)
  rw [List.length_append, List.length_map, List.length_map, List.length_range,
    List.length_map] at split
  rw [List.length_map, List.length_map] at reported
  rw [reported]
  exact split

end Counts

/-- The documents of a discovery have written units, or they have problems. -/
theorem exists_outcomes (files : FileSystem) (settings : Settings) (discovery : Discovery) :
    ∃ done failed : List SchemaFile, (done ++ failed).Perm discovery.files ∧
      List.Forall₂ (IsUnitPath files settings) done (reportOf files settings discovery).written ∧
      List.Forall₂ (IsFailed files) failed (reportOf files settings discovery).problems := by
  have written := forall₂_kept files discovery settings
  have rejected := forall₂_rejections files discovery
  have loaded := (perm_modelsAt (loadingOf files discovery)).map Prod.fst
  rw [List.map_append] at loaded
  generalize modelsAt (loadingOf files discovery)
    ((Plan.ofLoading (loadingOf files discovery)).analysis.kept.map Prod.fst) = kept
    at written loaded
  generalize modelsAt (loadingOf files discovery)
    ((Plan.ofLoading (loadingOf files discovery)).analysis.rejected.map Prod.fst) = others
    at rejected loaded
  have unsorted : List.Forall₂ (fun problem file => IsFailed files file problem)
      ((loadingOf files discovery).problems ++
        (Plan.ofLoading (loadingOf files discovery)).rejections)
      (unloaded files discovery.files ++ others.map Prod.fst) :=
    (List.rel_append (forall₂_unloaded files discovery)
      (List.forall₂_map_left_iff.mpr rejected)).flip
  -- Sorting the problems moves their documents along.
  obtain ⟨failed, related, moved⟩ := List.perm_comp_forall₂ (Problem.perm_sorted _) unsorted
  refine ⟨kept.map Prod.fst, failed, ?_, List.forall₂_map_left_iff.mpr written, related.flip⟩
  calc List.Perm (kept.map Prod.fst ++ failed)
          (kept.map Prod.fst ++ (unloaded files discovery.files ++ others.map Prod.fst)) :=
        moved.append_left _
    List.Perm _ (kept.map Prod.fst ++ (others.map Prod.fst ++ unloaded files discovery.files)) :=
        List.perm_append_comm.append_left _
    List.Perm _ ((loadingOf files discovery).models.map Prod.fst ++
          unloaded files discovery.files) :=
        (List.append_assoc _ _ _).symm ▸ loaded.append_right _
    List.Perm _ discovery.files := perm_loadingOf files discovery

/-- Problems of different documents are strictly increasing in the order of their paths. -/
theorem pairwise_problems (tree : files.IsTree) {query : Discovery.Query} {log : List Event}
    (outcome : Discovery.ofQuery files query = (.ok discovery, log)) (settings : Settings)
    {done failed : List SchemaFile} (perm : (done ++ failed).Perm discovery.files)
    (schemas : (reportOf files settings discovery).problems.map Problem.schema =
      failed.map SchemaFile.path) :
    (reportOf files settings discovery).problems.Pairwise fun left right =>
      left.schema.compare right.schema = .lt := by
  have different : discovery.files.Pairwise fun left right =>
      left.path.components ≠ right.path.components := by
    refine (Discovery.pairwise_files tree outcome).imp fun increases same => ?_
    rw [Path.compare_eq_eq_iff.mpr same] at increases
    cases increases
  have apart : failed.Pairwise fun left right => left.path.components ≠ right.path.components :=
    (List.pairwise_append.mp ((perm.pairwise_iff Ne.symm).mpr different)).2.1
  have paths : (failed.map SchemaFile.path).Pairwise fun left right =>
      left.components ≠ right.components := List.pairwise_map.mpr apart
  rw [← schemas] at paths
  refine @pairwise_lt_of_ne_gt _ (Ordering.byKey Problem.schema Path.compare) _ ?_ ?_
  · exact @pairwise_mergeSort_ne_gt _ (Ordering.byKey Problem.schema Path.compare) _ _
  · exact (List.pairwise_map.mp paths).imp fun differs same =>
      differs (Path.compare_eq_eq_iff.mp same)

/-- The report on the documents of a discovery accounts for them. -/
theorem accountsFor_reportOf (tree : files.IsTree) {query : Discovery.Query} {log : List Event}
    (outcome : Discovery.ofQuery files query = (.ok discovery, log)) (settings : Settings) :
    AccountsFor files settings discovery (reportOf files settings discovery) := by
  obtain ⟨done, failed, perm, written, problems⟩ := exists_outcomes files settings discovery
  have schemas : (reportOf files settings discovery).problems.map Problem.schema =
      failed.map SchemaFile.path :=
    map_eq_map_of_forall₂ (problems.flip.imp fun _ _ failed => failed.schema)
  obtain ⟨parse, rejected⟩ := countOf_reportOf files settings discovery
  have loaded : discovery.files.length = (loadingOf files discovery).models.length +
      (loadingOf files discovery).problems.length := by
    rw [← (perm_loadingOf files discovery).length_eq, List.length_append, List.length_map,
      (forall₂_unloaded files discovery).length_eq]
  have kept := length_kept_add (loadingOf files discovery)
  have all := length_eq_countP (reportOf files settings discovery).problems
  constructor
  · rfl
  · rw [parse]
    exact loaded
  · rw [Nat.add_assoc, rejected]
    exact kept.symm
  · exact List.length_map _
  · exact pairwise_problems tree outcome settings perm schemas
  · intro problem listed
    have member : problem.schema ∈ failed.map SchemaFile.path :=
      schemas ▸ List.mem_map_of_mem listed
    obtain ⟨file, inside, same⟩ := List.mem_map.mp member
    exact ⟨file, perm.subset (List.mem_append_right _ inside), same.symm⟩
  · rw [Report.isSuccess, List.isEmpty_iff, ← List.length_eq_zero_iff, all]
    unfold Report.countOf at parse rejected
    change _ ↔ (Plan.ofLoading (loadingOf files discovery)).analysis.kept.length =
      discovery.files.length
    omega
  · exact ⟨done, failed, perm, written, problems⟩

/-- A run that returns a report accounts for every document that it found, under every schedule of
its workers. -/
theorem run_accountsFor (schedule : Schedule) (registrar : Registrar) (settings : Settings)
    (host later : Host) (result : Report) (tree : host.files.IsTree)
    (ran : run schedule registrar settings host = (.ok result, later)) :
    ∃ discovery log,
      Discovery.ofQuery host.files ⟨settings.schemaRoot, schemaExtensions⟩ = (.ok discovery, log) ∧
      AccountsFor host.files settings discovery result := by
  obtain ⟨discovery, log, found, rfl⟩ := exists_reportOf_of_run ran
  exact ⟨discovery, log, found, accountsFor_reportOf tree found settings⟩

/-- The report on the shop: two documents have units, and each of the other four has a problem. -/
def shopReport : Report :=
  ⟨6, 5, 2, [⟨"o/com/example/Address.java"⟩, ⟨"o/com/example/billing/Invoice.java"⟩],
    [⟨⟨"s/bad.yaml"⟩, .load (.invalid [.invalidTypeName "7"])⟩,
      ⟨⟨"s/billing/bill.yml"⟩, .rejected (.collision
        ⟨⟨"billing/bill.yml"⟩, ⟨["billing"], "Bill"⟩, [⟨"billing/copy.yaml"⟩]⟩)⟩,
      ⟨⟨"s/billing/copy.yaml"⟩, .rejected (.collision
        ⟨⟨"billing/copy.yaml"⟩, ⟨["billing"], "Bill"⟩, [⟨"billing/bill.yml"⟩]⟩)⟩,
      ⟨⟨"s/order.yaml"⟩, .rejected (.unresolved
        ⟨⟨"order.yaml"⟩, "Order", "buyer", "Person", .unknown⟩)⟩], []⟩

/-- The report on the documents of the shop is this one. -/
theorem shop_reported :
    reportOf shopHost.files itemSettings ⟨shopDocuments, []⟩ = shopReport := by
  have problems : (loadingOf shopHost.files ⟨shopDocuments, []⟩).problems ++
      (Plan.ofLoading (loadingOf shopHost.files ⟨shopDocuments, []⟩)).rejections =
        shopReport.problems := by decide +kernel
  have sorted : Problem.sorted shopReport.problems = shopReport.problems :=
    List.mergeSort_of_pairwise (by decide +kernel)
  have reported : reportOf shopHost.files itemSettings ⟨shopDocuments, []⟩ =
      { reportOf shopHost.files itemSettings ⟨shopDocuments, []⟩ with
        problems := shopReport.problems } := by
    conv_rhs => rw [← sorted, ← problems]
    rfl
  rw [reported]
  decide +kernel

/-- The report on the shop accounts for its documents, of which one is not loaded, two collide and
one has an unresolved reference. -/
theorem shop_accounted :
    shopHost.files.IsTree ∧ ∃ later discovery log,
      run .free .note itemSettings shopHost = (.ok shopReport, later) ∧
      Discovery.ofQuery shopHost.files ⟨itemSettings.schemaRoot, schemaExtensions⟩ =
        (.ok discovery, log) ∧
      AccountsFor shopHost.files itemSettings discovery shopReport := by
  have tree : shopHost.files.IsTree := by decide +kernel
  obtain ⟨later, ran⟩ : ∃ later,
      run .free .note itemSettings shopHost = (.ok shopReport, later) := by
    obtain ⟨result, later, ran, _⟩ := shop_ended
    obtain ⟨discovery, log, found, rfl⟩ := exists_reportOf_of_run ran
    obtain rfl : discovery = ⟨shopDocuments, []⟩ :=
      Except.ok.inj (congrArg Prod.fst (found.symm.trans shop_query))
    exact ⟨later, shop_reported ▸ ran⟩
  obtain ⟨discovery, log, found, accounted⟩ :=
    run_accountsFor .free .note itemSettings shopHost later shopReport tree ran
  exact ⟨tree, later, discovery, log, ran, found, accounted⟩

end Generation

end SchemaBeans
