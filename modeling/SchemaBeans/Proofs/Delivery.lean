import SchemaBeans.Generation
import SchemaBeans.Proofs.Placement
import SchemaBeans.Proofs.Workers
import SchemaBeans.Proofs.Writing

/-!
# What a run delivers

A run that returns a report has written the unit of every kept model, each to the
path that the report lists, whatever the order was in which its workers wrote.
Nothing else in the file system has changed but for directories that were made.
-/

namespace SchemaBeans

namespace Analysis

variable {models : List Model} {entry : Numbered}

/-- No other model of a run has the qualified name of a kept one. -/
theorem name_ne_of_kept (kept : entry ∈ (ofModels models).kept) {position : Nat} {model : Model}
    (present : models[position]? = some model) (other : position ≠ entry.1) :
    QualifiedName.ofModel entry.2 ≠ QualifiedName.ofModel model := by
  intro same
  have free := (kept_sublist_uncontested models).subset kept
  obtain ⟨_, alone⟩ := List.mem_filter.mp free
  have contested : Contested models entry.1 entry.2 := ⟨position, model, other, present, same.symm⟩
  rw [← isSome_collision?_iff] at contested
  rw [Option.isNone_iff_eq_none] at alone
  rw [alone] at contested
  cases contested

/-- Kept models have different qualified names. -/
theorem pairwise_name_ne_kept (models : List Model) :
    (ofModels models).kept.Pairwise fun left right =>
      QualifiedName.ofModel left.2 ≠ QualifiedName.ofModel right.2 := by
  have accounted := accounts models
  have ordered := List.pairwise_map.mp accounted.kept_ordered
  refine ordered.imp_of_mem fun {left right} leftKept rightKept earlier => ?_
  exact name_ne_of_kept leftKept (accounted.kept_models right rightKept) (Nat.ne_of_gt earlier)

end Analysis

namespace Generation

open FileSystem (Settled Unlinked Reaches Holds)

variable {root : Path} {output : Location} {before files later : FileSystem}
  {units done : List SourceUnit} {unit : SourceUnit}

/-- What holds of the file system while units are written: those that are done stand in their files
below the output directory, and nothing else has changed but for directories. -/
structure Delivering (root : Path) (output : Location) (before : FileSystem)
    (done : List SourceUnit) (files : FileSystem) : Prop where
  reaches : files.Reaches root output
  unlinked : files.Unlinked output
  holds : ∀ unit ∈ done, FileSystem.refusal? (unit.target root) = none ∧
    files.Holds output unit.relative.names (SourceUnit.clean unit.source)
  settled : ∀ location, (∀ unit ∈ done, location ≠ output ++ unit.relative.names) →
    Settled before files location

/-- Writing a unit with a path of its own delivers it, and keeps what was delivered before. -/
theorem Delivering.write (delivering : Delivering root output before done files)
    (plain : unit.relative.IsPlain)
    (apart : ∀ other ∈ done, other.relative.names ≠ unit.relative.names) {path : Path}
    (written : unit.write root files = (.ok path, later)) :
    path = unit.target root ∧ Delivering root output before (unit :: done) later := by
  obtain ⟨rfl, allowed, puts⟩ := SourceUnit.puts_of_write delivering.unlinked delivering.reaches
    plain.proper plain.given plain.text written
  refine ⟨rfl, delivering.reaches.of_keeps puts.keeps, ?_, ?_, ?_⟩
  · intro below inside target linked
    by_cases own : below = output ++ unit.relative.names
    · rw [own, puts.holds.file] at linked
      cases linked
    · rcases puts.settled below own with same | ⟨_, made⟩
      · exact delivering.unlinked below inside target (same ▸ linked)
      · rw [made] at linked
        cases linked
  · refine List.forall_mem_cons.mpr ⟨⟨allowed, puts.holds⟩, fun other inside => ?_⟩
    obtain ⟨otherAllowed, holds⟩ := delivering.holds other inside
    have different : output ++ other.relative.names ≠ output ++ unit.relative.names :=
      fun same => apart other inside (List.append_cancel_left same)
    have stays := (puts.settled _ different).entryAt? holds.file
    exact ⟨otherAllowed, holds.of_keeps puts.keeps (stays.trans holds.file.symm)⟩
  · intro location elsewhere
    obtain ⟨own, others⟩ := List.forall_mem_cons.mp elsewhere
    exact (delivering.settled location others).trans (puts.settled location own)

/-- Making directories keeps what was delivered. -/
theorem Delivering.extend (delivering : Delivering root output before done files)
    (extended : FileSystem.Extends files later) : Delivering root output before done later := by
  refine ⟨delivering.reaches.of_keeps extended.keeps,
    delivering.unlinked.of_settled fun below _ => extended.settled below,
    fun unit inside => ?_,
    fun location elsewhere => (delivering.settled location elsewhere).trans
      (extended.settled location)⟩
  obtain ⟨allowed, holds⟩ := delivering.holds unit inside
  exact ⟨allowed, holds.of_keeps extended.keeps
    (((extended.settled _).entryAt? holds.file).trans holds.file.symm)⟩

/-- It does not matter in which order units were delivered. -/
theorem Delivering.of_mem_iff (delivering : Delivering root output before done files)
    {others : List SourceUnit} (same : ∀ unit, unit ∈ done ↔ unit ∈ others) :
    Delivering root output before others files :=
  ⟨delivering.reaches, delivering.unlinked,
    fun unit inside => delivering.holds unit ((same unit).mpr inside),
    fun location elsewhere => delivering.settled location
      fun unit inside => elsewhere unit ((same unit).mp inside)⟩

/-- A unit that was delivered is found at its path. -/
theorem Delivering.find (delivering : Delivering root output before done files)
    (inside : unit ∈ done) (plain : unit.relative.IsPlain) :
    files.find (unit.target root) =
      .ok (output ++ unit.relative.names, .file (.text (SourceUnit.clean unit.source))) := by
  obtain ⟨allowed, holds⟩ := delivering.holds unit inside
  have whole : FileSystem.pieces unit.relative = unit.relative.names :=
    (congrArg FileSystem.pieces plain.text).trans
      (FileSystem.pieces_descend plain.proper plain.given)
  exact holds.find delivering.reaches plain.not_isAbsolute whole allowed

variable {options : EmitOptions} {index : Index} {entry : Numbered} {host after : Host}

/-- Work on a model that has a unit writes the unit. -/
theorem work_eq_some_ok {outcome : Emitted}
    (emitted : Bean.emit options index entry.2 = .ok unit)
    (worked : (task options index root).work entry host = (some (.ok outcome), after)) :
    ∃ path, unit.write root host.files = (.ok path, after.files) ∧ outcome = .ok ⟨unit, path⟩ := by
  simp only [task, emitAndWrite, emitted] at worked
  split at worked
  · cases worked
  · next path files written =>
      cases worked
      exact ⟨path, written, rfl⟩

variable {kept : List Numbered} {results : List (Nat × Except WriteError Emitted)}

/-- Units that were written before have other names than one whose turn has not been yet. -/
theorem names_ne_of_fresh (distinct : (units.map fun unit => unit.relative.names).Nodup)
    (written : List.Forall₂ (fun entry unit => units[entry.1]? = some unit) results done)
    {position : Nat} (fresh : position ∉ results.map Prod.fst) (inside : position < units.length) :
    ∀ other ∈ done, other.relative.names ≠ units[position].relative.names := by
  intro other listed same
  obtain ⟨earlier, worked, found⟩ := exists_mem_of_forall₂ written listed
  obtain ⟨within, rfl⟩ := List.getElem?_eq_some_iff.mp found
  have places : earlier.1 = position := by
    refine (List.getElem?_inj (by simpa using within) distinct).mp ?_
    rw [List.getElem?_map, List.getElem?_map, found, List.getElem?_eq_getElem inside]
    exact congrArg some same
  exact fresh (List.mem_map.mpr ⟨earlier, worked, places⟩)

/-- However the work on the kept models was ordered, the units that it was done on are delivered. -/
theorem delivering_of_history
    (emitted : List.Forall₂ (fun entry unit => Bean.emit options index entry.2 = .ok unit)
      kept units)
    (plain : ∀ unit ∈ units, unit.relative.IsPlain)
    (distinct : (units.map fun unit => unit.relative.names).Nodup)
    (start : Delivering root output before [] host.files)
    (history : Pool.History (task options index root) kept host results after)
    (once : (results.map Prod.fst).Nodup)
    (fine : ∀ entry ∈ results, ∃ outcome, entry.2 = .ok outcome) :
    ∃ done, Delivering root output before done after.files ∧
      List.Forall₂ (fun entry unit => units[entry.1]? = some unit ∧
        entry.2 = .ok (.ok ⟨unit, unit.target root⟩)) results done := by
  induction history with
  | start => exact ⟨[], start, .nil⟩
  | cancel _ hypothesis => exact hypothesis once fine
  | @work results between position entry result last _ there worked hypothesis =>
      obtain ⟨fresh, onceBefore⟩ := List.nodup_cons.mp once
      obtain ⟨⟨outcome, rfl⟩, fineBefore⟩ := List.forall_mem_cons.mp fine
      obtain ⟨done, delivering, written⟩ := hypothesis onceBefore fineBefore
      obtain ⟨bound, rfl⟩ := List.getElem?_eq_some_iff.mp there
      have inside : position < units.length := emitted.length_eq ▸ bound
      have own : Bean.emit options index kept[position].2 = .ok units[position] :=
        emitted.get bound inside
      obtain ⟨path, wrote, rfl⟩ := work_eq_some_ok own worked
      have apart := names_ne_of_fresh distinct (written.imp fun _ _ both => both.1) fresh inside
      obtain ⟨rfl, delivered⟩ :=
        delivering.write (plain _ (List.getElem_mem inside)) apart wrote
      exact ⟨_, delivered, .cons ⟨List.getElem?_eq_getElem inside, rfl⟩ written⟩

/-- What is written is written to the path of the unit. -/
theorem eq_target_of_write {path : Path}
    (written : unit.write root files = (.ok path, later)) : path = unit.target root := by
  unfold SourceUnit.write at written
  split at written
  · cases written
  · split at written <;> cases written
    rfl

/-- However the work on the kept models was ordered, each outcome is the unit of its model. -/
theorem outcomes_of_finished {outcomes : List Emitted}
    (emitted : List.Forall₂ (fun entry unit => Bean.emit options index entry.2 = .ok unit)
      kept units)
    (finished :
      Pool.Finished (task options index root) kept host results (outcomes.map .ok) after) :
    outcomes = units.map fun unit => .ok ⟨unit, unit.target root⟩ := by
  have length : outcomes.length = units.length := by
    rw [← emitted.length_eq, ← finished.length, List.length_map]
  refine List.ext_getElem (by simpa using length) fun position bound within => ?_
  rw [List.length_map] at within
  have there : (outcomes.map Except.ok : List (Except WriteError Emitted))[position]? =
      some (.ok outcomes[position]) := by
    rw [List.getElem?_map, List.getElem?_eq_getElem bound]
    rfl
  obtain ⟨entry, before, later, found, worked⟩ : ∃ entry before later,
      kept[position]? = some entry ∧ (task options index root).work entry before =
        (some (.ok outcomes[position]), later) :=
    finished.history.exists_work _ (finished.mem_done there)
  obtain ⟨inside, rfl⟩ := List.getElem?_eq_some_iff.mp found
  have own : Bean.emit options index kept[position].2 = .ok units[position] :=
    emitted.get inside within
  obtain ⟨path, wrote, same⟩ := work_eq_some_ok own worked
  rw [same, eq_target_of_write wrote, List.getElem_map]

/-- The pool of a run delivers all units. -/
theorem delivering_of_finished {outcomes : List Emitted}
    (emitted : List.Forall₂ (fun entry unit => Bean.emit options index entry.2 = .ok unit)
      kept units)
    (plain : ∀ unit ∈ units, unit.relative.IsPlain)
    (distinct : (units.map fun unit => unit.relative.names).Nodup)
    (start : Delivering root output before [] host.files)
    (finished :
      Pool.Finished (task options index root) kept host results (outcomes.map .ok) after) :
    Delivering root output before units after.files := by
  obtain ⟨done, delivering, written⟩ :=
    delivering_of_history emitted plain distinct start finished.history finished.nodup
      finished.exists_eq
  -- Each position has its result in the history, and with it its unit.
  have all : ∀ unit ∈ units, unit ∈ done := by
    intro unit inside
    obtain ⟨position, bound, rfl⟩ := List.mem_iff_getElem.mp inside
    have within : position < (outcomes.map Except.ok : List (Except WriteError Emitted)).length :=
      finished.length.trans emitted.length_eq ▸ bound
    obtain ⟨unit, listed, found, _⟩ := exists_mem_of_forall₂ written.flip
      (finished.mem_done (List.getElem?_eq_getElem within))
    rw [List.getElem?_eq_getElem bound] at found
    cases found
    exact listed
  have only : ∀ unit ∈ done, unit ∈ units := by
    intro unit inside
    obtain ⟨_, _, found, _⟩ := exists_mem_of_forall₂ written inside
    exact List.mem_of_getElem? found
  exact delivering.of_mem_iff fun unit => ⟨only unit, all unit⟩

/-- Work on a document loads it, and leaves the file system as it is. -/
theorem load_of_work {document : SchemaFile} {result : Except LoadError Model}
    (worked : Loading.task.work document host = (some result, after)) :
    result = document.load host.files ∧ after.files = host.files := by
  simp only [Loading.task] at worked
  split at worked
  · next loaded =>
      cases worked
      exact ⟨loaded.symm, rfl⟩
  · next failed =>
      cases worked
      exact ⟨failed.symm, rfl⟩

/-- In whatever order documents are loaded, each is loaded from the same file system. -/
theorem files_of_loading {documents : List SchemaFile}
    {results : List (Nat × Except LoadError Model)}
    (history : Pool.History Loading.task documents host results after) :
    after.files = host.files ∧ ∀ entry ∈ results, ∃ document,
      documents[entry.1]? = some document ∧ entry.2 = document.load host.files := by
  induction history with
  | start => simp
  | cancel _ hypothesis => exact hypothesis
  | work _ there worked hypothesis =>
      obtain ⟨same, loaded⟩ := hypothesis
      obtain ⟨rfl, unchanged⟩ := load_of_work worked
      exact ⟨unchanged.trans same, List.forall_mem_cons.mpr ⟨⟨_, there, by rw [same]⟩, loaded⟩⟩

/-- A pool that has loaded documents has the same results as loading one after the other. -/
theorem results_of_loading {documents : List SchemaFile}
    {done : List (Nat × Except LoadError Model)} {results : List (Except LoadError Model)}
    (finished : Pool.Finished Loading.task documents host done results after) :
    results = documents.map fun document => document.load host.files := by
  have length : results.length = (documents.map fun document => document.load host.files).length :=
    finished.length.trans (List.length_map _).symm
  refine List.ext_getElem length fun position bound within => ?_
  obtain ⟨document, there, loaded⟩ := (files_of_loading finished.history).2 _
    (finished.mem_done (List.getElem?_eq_getElem bound))
  obtain ⟨_, rfl⟩ := List.getElem?_eq_some_iff.mp there
  rw [List.getElem_map]
  exact loaded

/-- What becomes of the documents of a discovery when they are loaded. -/
def loadingOf (files : FileSystem) (discovery : Discovery) : Loading :=
  let outcomes := discovery.files.map fun file => (file, file.load files)
  ⟨discovery.files.length, Loading.modelsOf outcomes, Loading.problemsOf outcomes,
    discovery.warnings⟩

/-- A run that loads its documents has the same loading under every schedule, and leaves the file
system as it is. -/
theorem exists_discovery_of_ofRoot {schedule : List Pool.Move} {jobs : Nat} {schemaRoot : Path}
    {loading : Loading}
    (loaded : Loading.ofRoot schedule jobs schemaRoot host = (.ok loading, after)) :
    ∃ discovery log,
      Discovery.ofQuery host.files ⟨schemaRoot, schemaExtensions⟩ = (.ok discovery, log) ∧
      loading = loadingOf host.files discovery ∧ after.files = host.files := by
  unfold Loading.ofRoot at loaded
  split at loaded
  · cases loaded
  · next discovery events found =>
      split at loaded
      · cases loaded
      · next results between ran =>
          cases loaded
          have finished := Pool.finished_of_run ran
          refine ⟨discovery, events, found, ?_, (files_of_loading finished.history).1⟩
          rw [loadingOf, List.map_prod_left_eq_zip, results_of_loading finished]
          rfl

/-- The plan of a run is made for the loading of the documents of its discovery. -/
theorem exists_discovery_of_plan {schedule : List Pool.Move} {settings : Settings} {made : Plan}
    (planned : plan schedule settings host = (.ok made, after)) :
    ∃ discovery log,
      Discovery.ofQuery host.files ⟨settings.schemaRoot, schemaExtensions⟩ = (.ok discovery, log) ∧
      made = .ofLoading (loadingOf host.files discovery) ∧ after.files = host.files := by
  unfold plan at planned
  split at planned
  · cases planned
  · next loading between loaded =>
      obtain ⟨discovery, log, found, rfl, same⟩ := exists_discovery_of_ofRoot loaded
      split at planned
      · cases planned
      · cases planned
        exact ⟨discovery, log, found, rfl, same⟩

/-- The plan of a run is made of loadable models, and making it leaves the file system as it is. -/
theorem loadable_of_plan {schedule : List Pool.Move} {settings : Settings} {made : Plan}
    (planned : plan schedule settings host = (.ok made, after)) :
    (∃ loading, made = .ofLoading loading) ∧
      (∀ model ∈ made.loading.models.map Prod.snd, model.Loadable) ∧ after.files = host.files := by
  obtain ⟨discovery, log, _, rfl, same⟩ := exists_discovery_of_plan planned
  refine ⟨⟨_, rfl⟩, ?_, same⟩
  intro model inside
  obtain ⟨⟨document, _⟩, listed, rfl⟩ := List.mem_map.mp inside
  obtain ⟨outcome, among, chosen⟩ := List.mem_filterMap.mp listed
  obtain ⟨file, _, rfl⟩ := List.mem_map.mp among
  dsimp only at chosen
  split at chosen
  · next model loaded =>
      cases chosen
      exact Model.loadable_of_load loaded
  · cases chosen

/-- Printing some texts adds them to the output. -/
theorem foldl_print_eq {α : Type} (text : α → String) (elements : List α) (host : Host) :
    elements.foldl (fun host element => host.print (text element)) host =
      { host with output := (elements.map text).reverse ++ host.output } := by
  induction elements generalizing host with
  | nil => rfl
  | cons element elements hypothesis =>
      rw [List.foldl_cons, hypothesis, List.map_cons, List.reverse_cons, List.append_assoc]
      rfl

/-- Registering a directory adds it to those that were registered, and otherwise only prints. -/
theorem exists_output_register (registrar : Registrar) (directory : Path) (host : Host) :
    ∃ output, registrar.register directory host =
      { host with registered := directory :: host.registered, output } := by
  cases registrar with
  | note => exact ⟨host.output, rfl⟩
  | buildTool schemaRoot => exact ⟨_, foldl_print_eq (· ++ "\n") _ _⟩

/-- Registering a directory leaves the file system as it is. -/
theorem files_register (registrar : Registrar) (directory : Path) (host : Host) :
    (registrar.register directory host).files = host.files := by
  obtain ⟨output, same⟩ := exists_output_register registrar directory host
  rw [same]

/-- The end of a run leaves the file system as it is. -/
theorem files_finish (settings : Settings) (made : Plan) (outcomes : List (Numbered × Emitted))
    (host : Host) : (finish settings made outcomes host).2.files = host.files := by
  unfold finish
  cases settings.echo with
  | false => rfl
  | true => simp [foldl_print_eq, Host.tell, Host.tellAll]

/-- What a run with a report has done for the models that its plan keeps: `units` are their units,
and `output` is the location of the output directory. -/
structure Delivery (root : Path) (options : EmitOptions) (plan : Plan) (output : Location)
    (units : List SourceUnit) (before after : FileSystem) (report : Report) : Prop where
  emitted : plan.analysis.kept.mapM (fun entry =>
    Bean.emit options plan.analysis.index entry.2) = .ok units
  written : report.written = units.map fun unit => unit.target root
  distinct : (report.written.map Path.components).Nodup
  generated : report.generated = report.written.length
  delivered : ∀ unit ∈ units, after.find (unit.target root) =
    .ok (output ++ unit.relative.names, .file (.text (SourceUnit.clean unit.source)))
  settled : ∀ location, (∀ unit ∈ units, location ≠ output ++ unit.relative.names) →
    Settled before after location
  /-- No file is made or changed where the unit of a rejected model would be. -/
  rejected : ∀ rejection ∈ plan.analysis.rejected, ∀ document model,
    plan.loading.models[rejection.1]? = some (document, model) →
      Settled before after (output ++ (Bean.pathOf options.basePackage model).names)

/-- Models that are not called alike have units of which none is at or above another. -/
theorem not_prefix_of_ne {base : String} {model other : Model}
    (package : Identifier.isPackage base = true) (loadable : model.Loadable)
    (otherLoadable : other.Loadable)
    (different : QualifiedName.ofModel model ≠ QualifiedName.ofModel other) :
    ¬ (Bean.pathOf base model).names <+: (Bean.pathOf base other).names := by
  have apart := (Bean.apart_pathOf package loadable otherLoadable different).1
  rw [(Bean.isPlain_pathOf package loadable).components_eq,
    (Bean.isPlain_pathOf package otherLoadable).components_eq] at apart
  exact fun above => apart (above.map Component.name)

/-- Models with different names have units at different places. -/
theorem names_ne_of_ne {base : String} {model other : Model}
    (package : Identifier.isPackage base = true) (loadable : model.Loadable)
    (otherLoadable : other.Loadable)
    (different : QualifiedName.ofModel model ≠ QualifiedName.ofModel other) :
    (Bean.pathOf base model).names ≠ (Bean.pathOf base other).names := by
  intro same
  have above := not_prefix_of_ne package loadable otherLoadable different
  rw [same] at above
  exact above List.prefix_rfl

/-- Related lists have the same image where related elements do. -/
theorem map_eq_map_of_forall₂ {α β γ : Type} {left : List α} {right : List β} {f : α → γ}
    {g : β → γ} (related : List.Forall₂ (fun one other => f one = g other) left right) :
    left.map f = right.map g := by
  induction related with
  | nil => rfl
  | cons same _ hypothesis => rw [List.map_cons, List.map_cons, same, hypothesis]

/-- No unit of a kept model is at or above that of another. -/
theorem pairwise_not_prefix_units {models : List Model} {index : Index}
    (package : Identifier.isPackage options.basePackage = true)
    (loadable : ∀ model ∈ models, model.Loadable)
    (emitted : List.Forall₂ (fun entry unit => Bean.emit options index entry.2 = .ok unit)
      (Analysis.ofModels models).kept units) :
    units.Pairwise fun left right => ¬ left.relative.names <+: right.relative.names ∧
      ¬ right.relative.names <+: left.relative.names := by
  have same : (Analysis.ofModels models).kept.map
      (fun entry => (Bean.pathOf options.basePackage entry.2).names) =
        units.map fun unit => unit.relative.names := by
    refine map_eq_map_of_forall₂ (emitted.imp fun entry unit written => ?_)
    rw [(Bean.unit_of_emit written).2.2]
  refine (List.pairwise_map (R := fun left right : List String =>
    ¬ left <+: right ∧ ¬ right <+: left)).mp ?_
  rw [← same]
  refine List.pairwise_map.mpr ((Analysis.pairwise_name_ne_kept models).imp_of_mem ?_)
  intro left right leftKept rightKept different
  have leftLoadable := Bean.loadable_of_kept loadable leftKept
  have rightLoadable := Bean.loadable_of_kept loadable rightKept
  exact ⟨not_prefix_of_ne package leftLoadable rightLoadable different,
    not_prefix_of_ne package rightLoadable leftLoadable different.symm⟩

/-- The units of the models that a plan keeps: there is one for each, placed by names alone, and none
is placed at or above another. -/
theorem exists_units {models : List Model} (package : Identifier.isPackage options.basePackage = true)
    (loadable : ∀ model ∈ models, model.Loadable) :
    ∃ units, (Analysis.ofModels models).kept.mapM (fun entry =>
        Bean.emit options (Analysis.ofModels models).index entry.2) = .ok units ∧
      List.Forall₂ (fun entry unit =>
        Bean.emit options (Analysis.ofModels models).index entry.2 = .ok unit)
        (Analysis.ofModels models).kept units ∧
      (∀ unit ∈ units, unit.relative.IsPlain) ∧
      units.Pairwise fun left right => ¬ left.relative.names <+: right.relative.names ∧
        ¬ right.relative.names <+: left.relative.names := by
  obtain ⟨units, mapped⟩ := exists_mapM_eq_ok fun entry kept =>
    @Bean.exists_emit_of_kept models entry options kept
  have emitted := forall₂_of_mapM_eq_ok mapped
  refine ⟨units, mapped, emitted, fun unit inside => ?_,
    pairwise_not_prefix_units package loadable emitted⟩
  obtain ⟨entry, listed, written⟩ := exists_mem_of_forall₂ emitted inside
  rw [(Bean.unit_of_emit written).2.2]
  exact Bean.isPlain_pathOf package (Bean.loadable_of_kept loadable listed)

/-- Units of which none is at or above another have different paths. -/
theorem nodup_names_of_pairwise
    (apart : units.Pairwise fun left right => ¬ left.relative.names <+: right.relative.names ∧
      ¬ right.relative.names <+: left.relative.names) :
    (units.map fun unit => unit.relative.names).Nodup := by
  refine List.pairwise_map.mpr (apart.imp ?_)
  rintro left right ⟨notAbove, _⟩ same
  exact notAbove (same ▸ List.prefix_refl _)

/-- The units among the outcomes of a pool that wrote them all. -/
theorem writtenOf_zip (length : kept.length = units.length) :
    writtenOf (kept.zip (units.map fun unit => .ok ⟨unit, unit.target root⟩)) =
      units.map fun unit => ⟨unit, unit.target root⟩ := by
  have outcomes : ∀ entries : List (Numbered × Emitted),
      writtenOf entries = (entries.map Prod.snd).filterMap Except.toOption := by
    intro entries
    rw [List.filterMap_map]
    rfl
  rw [outcomes, List.map_snd_zip (by simp [length]), List.filterMap_map]
  exact List.filterMap_eq_map_iff_forall_eq_some.mpr fun _ _ => rfl

/-- The path of a unit of some kept model. -/
theorem exists_kept_of_mem_units {models : List Model}
    (emitted : List.Forall₂ (fun entry unit => Bean.emit options index entry.2 = .ok unit)
      (Analysis.ofModels models).kept units) (inside : unit ∈ units) :
    ∃ entry ∈ (Analysis.ofModels models).kept,
      unit.relative = Bean.pathOf options.basePackage entry.2 := by
  obtain ⟨entry, listed, written⟩ := exists_mem_of_forall₂ emitted inside
  exact ⟨entry, listed, (Bean.unit_of_emit written).2.2⟩

/-- A rejected model has no path in common with a unit. -/
theorem names_ne_of_rejected {models : List Model}
    (package : Identifier.isPackage options.basePackage = true)
    (loadable : ∀ model ∈ models, model.Loadable)
    (emitted : List.Forall₂ (fun entry unit => Bean.emit options index entry.2 = .ok unit)
      (Analysis.ofModels models).kept units) (inside : unit ∈ units)
    {rejection : Nat × Rejection} (rejected : rejection ∈ (Analysis.ofModels models).rejected)
    {model : Model} (present : models[rejection.1]? = some model) :
    (Bean.pathOf options.basePackage model).names ≠ unit.relative.names := by
  obtain ⟨entry, listed, relative⟩ := exists_kept_of_mem_units emitted inside
  have counted := (Analysis.perm_ofModels models).nodup_iff.mpr List.nodup_range
  have other : rejection.1 ≠ entry.1 := by
    intro same
    have apart := (List.nodup_append.mp counted).2.2 _ (List.mem_map_of_mem listed)
      _ (List.mem_map_of_mem rejected)
    exact apart same.symm
  rw [relative]
  exact names_ne_of_ne package (loadable model (List.mem_of_getElem? present))
    (Bean.loadable_of_kept loadable listed) (Analysis.name_ne_of_kept listed present other).symm

/-- A pool that has worked on all kept models of a plan has delivered their units. -/
theorem delivery_of_finished {settings : Settings} {loading : Loading} {outcomes : List Emitted}
    (package : Identifier.isPackage options.basePackage = true)
    (loadable : ∀ model ∈ loading.models.map Prod.snd, model.Loadable)
    (unlinked : before.Unlinked output) (extended : FileSystem.Extends before host.files)
    (reaches : host.files.Reaches root output)
    (finished : Pool.Finished (task options (Plan.ofLoading loading).analysis.index root)
      (Plan.ofLoading loading).analysis.kept host results (outcomes.map .ok) after) :
    ∃ units, Delivery root options (.ofLoading loading) output units before after.files
      (finish settings (.ofLoading loading)
        ((Plan.ofLoading loading).analysis.kept.zip outcomes) after).1 := by
  obtain ⟨units, mapped, emitted, plain, apart⟩ := exists_units package loadable
  have distinct := nodup_names_of_pairwise apart
  have start : Delivering root output before [] host.files :=
    ⟨reaches, unlinked.of_settled fun below _ => extended.settled below, by simp,
      fun location _ => extended.settled location⟩
  have delivering := delivering_of_finished emitted plain distinct start finished
  obtain rfl := outcomes_of_finished emitted finished
  have zipped : writtenOf ((Plan.ofLoading loading).analysis.kept.zip
      (units.map fun unit => .ok ⟨unit, unit.target root⟩)) =
        units.map fun unit => ⟨unit, unit.target root⟩ := writtenOf_zip emitted.length_eq
  have written : (finish settings (.ofLoading loading) ((Plan.ofLoading loading).analysis.kept.zip
      (units.map fun unit => .ok ⟨unit, unit.target root⟩)) after).1.written =
        units.map fun unit => unit.target root := by
    have paths := congrArg (List.map Written.path) zipped
    rw [List.map_map] at paths
    exact paths
  refine ⟨units, mapped, written, ?_, ?_, ?_, delivering.settled, ?_⟩
  · rw [written, List.map_map]
    have components : units.map (Path.components ∘ fun unit => unit.target root) =
        (units.map fun unit => unit.relative.names).map fun names =>
          root.components ++ names.map .name := by
      rw [List.map_map]
      exact List.map_congr_left fun unit inside => (plain unit inside).components_join
    rw [components]
    refine distinct.map fun left right same => ?_
    exact Path.name_injective.list_map (List.append_cancel_left same)
  · simp only [finish, report, List.length_map]
  · exact fun unit inside => delivering.find inside (plain unit inside)
  · intro rejection rejected document model present
    refine delivering.settled _ fun unit inside => ?_
    have there : (loading.models.map Prod.snd)[rejection.1]? = some model :=
      List.getElem?_map.trans (congrArg (Option.map Prod.snd) present)
    have different := names_ne_of_rejected package loadable emitted inside rejected there
    exact fun same => different (List.append_cancel_left same)

/-- What was done when a plan is carried out to the end. -/
theorem exists_finished_of_writeAll {schedule : List Pool.Move} {settings : Settings} {made : Plan}
    {result : Report} {last : Host}
    (wrote : writeAll schedule settings options made host = (.ok result, last)) :
    ∃ files outcomes results after,
      host.files.makeDirectories settings.outputDir = (.ok (), files) ∧
      Pool.Finished (task options made.analysis.index settings.outputDir) made.analysis.kept
        (host.withFiles files) results (outcomes.map .ok) after ∧
      finish settings made (made.analysis.kept.zip outcomes) after = (result, last) := by
  unfold writeAll at wrote
  cases directories : host.files.makeDirectories settings.outputDir with
  | mk outcome files =>
      cases outcome with
      | error error =>
          rw [directories] at wrote
          cases wrote
      | ok =>
          simp only [directories] at wrote
          split at wrote
          · cases wrote
          · cases wrote
          · next outcomes after ran =>
              cases wrote
              obtain ⟨results, finished⟩ := Pool.exists_finished_of_tryRun ran
              exact ⟨files, outcomes, results, after, rfl, finished, rfl⟩

/-- What was done when a run returns a report. -/
theorem exists_finished_of_run {schedule : Schedule} {registrar : Registrar} {settings : Settings}
    {result : Report} {last : Host}
    (package : Identifier.isPackage settings.basePackage = true)
    (ran : run schedule registrar settings host = (.ok result, last)) :
    ∃ options loading begun outcomes results after,
      settings.emitOptions = .ok options ∧
      Identifier.isPackage options.basePackage = true ∧
      (plan schedule.loading settings host).1 = .ok (.ofLoading loading) ∧
      (∀ model ∈ loading.models.map Prod.snd, model.Loadable) ∧
      host.files.makeDirectories settings.outputDir = (.ok (), begun.files) ∧
      Pool.Finished (task options (Plan.ofLoading loading).analysis.index settings.outputDir)
        (Plan.ofLoading loading).analysis.kept begun results (outcomes.map .ok) after ∧
      finish settings (.ofLoading loading)
        ((Plan.ofLoading loading).analysis.kept.zip outcomes) after = (result, last) := by
  unfold run at ran
  split at ran
  · cases ran
  · next options chosen =>
      split at ran
      · cases ran
      · next made between planned =>
          obtain ⟨⟨loading, rfl⟩, loadable, same⟩ := loadable_of_plan planned
          obtain ⟨files, outcomes, results, after, directories, finished, ended⟩ :=
            exists_finished_of_writeAll ran
          rw [files_register, same] at directories
          have checked : Identifier.isPackage options.basePackage = true := by
            unfold Settings.emitOptions at chosen
            split at chosen <;> cases chosen
            exact package
          exact ⟨options, loading, _, outcomes, results, after, chosen, checked, by rw [planned],
            loadable, directories, finished, ended⟩

/-- A run that returns a report has delivered the units of the kept models, under every schedule of
its workers. Resolved settings always have a package as their base. -/
theorem run_delivers (schedule : Schedule) (registrar : Registrar) (settings : Settings)
    (host later : Host) (result : Report)
    (package : Identifier.isPackage settings.basePackage = true)
    (unlinked : ∀ output, host.files.madeDirectory? settings.outputDir = some output →
      host.files.Unlinked output)
    (ran : run schedule registrar settings host = (.ok result, later)) :
    ∃ options made output units, settings.emitOptions = .ok options ∧
      (plan schedule.loading settings host).1 = .ok made ∧
      host.files.madeDirectory? settings.outputDir = some output ∧
      Delivery settings.outputDir options made output units host.files later.files result := by
  obtain ⟨options, loading, begun, outcomes, results, after, chosen, checked, planned, loadable,
    directories, finished, ended⟩ := exists_finished_of_run package ran
  obtain ⟨output, there, reaches⟩ := FileSystem.exists_madeDirectory directories
  have extended : FileSystem.Extends host.files begun.files := by
    have added := FileSystem.extends_makeDirectories host.files settings.outputDir
    rwa [directories] at added
  obtain ⟨units, delivery⟩ : ∃ units, Delivery settings.outputDir options (.ofLoading loading)
      output units host.files after.files (finish settings (.ofLoading loading)
        ((Plan.ofLoading loading).analysis.kept.zip outcomes) after).1 :=
    delivery_of_finished checked loadable (unlinked output there) extended reaches finished
  have unchanged := files_finish settings (.ofLoading loading)
    ((Plan.ofLoading loading).analysis.kept.zip outcomes) after
  rw [ended] at delivery unchanged
  rw [← unchanged] at delivery
  exact ⟨options, _, output, units, chosen, planned, there, delivery⟩

/-- A host with the schema of an item. -/
def itemHost : Host :=
  .ofFiles ⟨[(["s"], .directory), (["s", "item.yaml"], .file (.text "typeName: Item\n"))], []⟩

/-- The settings of a run that generates the class of the item into a new directory. -/
def itemSettings : Settings := ⟨⟨"s"⟩, ⟨"o"⟩, "com.example", 1, false, []⟩

/-- A host with the schemas of a shop. An invoice mentions the address, two documents define the
same bill, nothing defines the buyer of the order, and one document has a number for a name. -/
def shopHost : Host :=
  .ofFiles ⟨[(["s"], .directory),
    (["s", "address.yaml"], .file (.text "typeName: Address\n")),
    (["s", "bad.yaml"], .file (.text "typeName: 7\n")),
    (["s", "billing"], .directory),
    (["s", "billing", "bill.yml"], .file (.text "typeName: Bill\n")),
    (["s", "billing", "copy.yaml"], .file (.text "typeName: Bill\n")),
    (["s", "billing", "invoice.yaml"],
      .file (.text "typeName: Invoice\nproperties:\n  to: Address\n")),
    (["s", "order.yaml"], .file (.text "typeName: Order\nproperties:\n  buyer: Person\n"))], []⟩

/-- The documents of the shop. -/
def shopDocuments : List SchemaFile :=
  ["address.yaml", "bad.yaml", "billing/bill.yml", "billing/copy.yaml", "billing/invoice.yaml",
    "order.yaml"].map fun name => ⟨⟨"s/" ++ name⟩, ⟨name⟩⟩

/-- Once a run has started, the documents of the shop are found in the order of their paths. -/
theorem shop_query :
    Discovery.ofQuery (shopHost.tell (startEvent itemSettings)).files
        ⟨itemSettings.schemaRoot, schemaExtensions⟩ =
      (.ok ⟨shopDocuments, []⟩,
        (Discovery.walkFrom shopHost.files ⟨⟨"s"⟩, schemaExtensions⟩ ["s"]).log.reverse ++
          shopDocuments.map Discovery.found) := by
  have root : shopHost.files.find ⟨"s"⟩ = .ok (["s"], .directory) := by decide +kernel
  have walked : (Discovery.walkFrom shopHost.files ⟨⟨"s"⟩, schemaExtensions⟩ ["s"]).files.reverse =
      shopDocuments := by decide +kernel
  have clean : (Discovery.walkFrom shopHost.files ⟨⟨"s"⟩, schemaExtensions⟩ ["s"]).warnings =
      [] := by decide +kernel
  have sorted : Discovery.sorted shopDocuments = shopDocuments :=
    List.mergeSort_of_pairwise (by decide +kernel)
  simp [Discovery.ofQuery, itemSettings, Host.tell, root, walked, sorted, clean]

/-- A run over the shop ends with a report: one of six documents is not loaded, and of the other
models two are kept. -/
theorem shop_ended : ∃ result later, run .free .note itemSettings shopHost = (.ok result, later) ∧
    result.discovered = 6 ∧ result.loaded = 5 ∧
    result.written = [⟨"o/com/example/Address.java"⟩, ⟨"o/com/example/billing/Invoice.java"⟩] := by
  have counts : (run .free .note itemSettings shopHost).1.toOption.map
      (fun result => (result.discovered, result.loaded, result.written)) =
        some (6, 5, [⟨"o/com/example/Address.java"⟩, ⟨"o/com/example/billing/Invoice.java"⟩]) := by
    -- The sorted documents are put in, as sorting is by well-founded recursion.
    simp only [run, plan, Loading.ofRoot]
    rw [shop_query]
    decide +kernel
  cases ended : run .free .note itemSettings shopHost with
  | mk outcome later =>
      rw [ended] at counts
      cases outcome with
      | error error => cases counts
      | ok result =>
          obtain ⟨discovered, loaded, written⟩ : result.discovered = 6 ∧ result.loaded = 5 ∧ _ := by
            simpa using Option.some.inj counts
          exact ⟨result, later, rfl, discovered, loaded, written⟩

/-- The address and the invoice are delivered, and nothing is written for the documents that are
left out of the run. -/
theorem shop_delivered :
    ∃ result later options made output units,
      run .free .note itemSettings shopHost = (.ok result, later) ∧
      result.written =
        [⟨"o/com/example/Address.java"⟩, ⟨"o/com/example/billing/Invoice.java"⟩] ∧
      itemSettings.emitOptions = .ok options ∧
      (plan Schedule.free.loading itemSettings shopHost).1 = .ok made ∧
      shopHost.files.madeDirectory? itemSettings.outputDir = some output ∧
      Delivery itemSettings.outputDir options made output units shopHost.files later.files
        result := by
  obtain ⟨result, later, ran, _, _, written⟩ := shop_ended
  have unlinked : ∀ output, shopHost.files.madeDirectory? itemSettings.outputDir = some output →
      shopHost.files.Unlinked output :=
    fun output _ => FileSystem.unlinked_of_entries (by simp [shopHost, Host.ofFiles])
  obtain ⟨options, made, output, units, chosen, planned, there, delivery⟩ :=
    run_delivers .free .note itemSettings shopHost later result (by decide +kernel) unlinked ran
  exact ⟨result, later, options, made, output, units, ran, written, chosen, planned, there,
    delivery⟩

end Generation

end SchemaBeans
