import SchemaBeans.Proofs.Rediscovery
import SchemaBeans.Proofs.Registering
import SchemaBeans.Proofs.Repeating
import SchemaBeans.Proofs.Stopping

/-!
# Running once more

A run leaves its output directory and its units so that they are made and written
again without any change. If nothing that it made is in the way of its documents,
another run finds the same documents and ends with the same report.
-/

namespace SchemaBeans

namespace Bean

/-- The file of a type has the extension of sources. -/
theorem extensionOf?_fileName {typeName : String}
    (valid : Identifier.isIdentifier typeName = true) :
    Path.extensionOf? (fileName typeName) = some extension := by
  have whole : '.' ∉ typeName.toList := Identifier.not_mem_of_isIdentifier valid (by decide)
  have given : typeName.toList ≠ [] := fun empty =>
    Identifier.ne_empty_of_isIdentifier valid (String.toList_inj.mp empty)
  have joined : (fileName typeName).toList =
      Text.join ['.'] [typeName.toList, extension.toList] := by
    simp [fileName, Text.join]
  have split : Text.split '.' (fileName typeName).toList =
      [typeName.toList, extension.toList] := by
    rw [joined]
    refine Text.split_join (by simp) ?_
    simp [whole, extension]
  simp [Path.extensionOf?, split, given]

/-- The file of a type is no schema document. -/
theorem not_nameHasExtension_fileName {typeName : String}
    (valid : Identifier.isIdentifier typeName = true) :
    ¬ Discovery.NameHasExtension (fileName typeName) schemaExtensions := by
  rintro ⟨found, same, allowed, inside, agrees⟩
  rw [extensionOf?_fileName valid] at same
  cases same
  have different : ∀ allowed ∈ schemaExtensions,
      sameIgnoringCase allowed extension = false := by decide +kernel
  rw [different allowed inside] at agrees
  cases agrees

end Bean

namespace FileSystem

/-- A place at or below an output directory, or at or below a directory that is made on the way to
it. -/
def Reserved (files : FileSystem) (outputDir : Path) (place : Location) : Prop :=
  ∃ top, top <+: place ∧ (files.madeDirectory? outputDir = some top ∨
    files.entryAt? top = none ∧
      (files.makeDirectories outputDir).2.entryAt? top = some .directory)

end FileSystem

namespace Generation

open FileSystem (Keeps Settled Reserved IsUsable)

variable {root : Path} {output location : Location} {before : FileSystem} {units : List SourceUnit}
  {unit : SourceUnit} {options : EmitOptions} {index : Index} {kept : List Numbered}
  {host after : Host} {results : List (Nat × Except WriteError Emitted)}

/-- What is left when units were written: a tree in which each of them is written once more without
any change. -/
structure Standing (root : Path) (done : List SourceUnit) (before after : FileSystem) : Prop where
  keeps : Keeps before after
  usable : after.IsUsable
  again : ∀ unit ∈ done, unit.write root after = (.ok (unit.target root), after)

/-- Writing a unit with a place of its own leaves it standing, and what stood before. -/
theorem Standing.write {files later start : FileSystem} {done : List SourceUnit}
    (standing : Standing root done start files)
    (delivering : Delivering root output before done files) (plain : unit.relative.IsPlain)
    (plainDone : ∀ other ∈ done, other.relative.IsPlain)
    (apart : ∀ other ∈ done, other.relative.names ≠ unit.relative.names) {path : Path}
    (written : unit.write root files = (.ok path, later)) :
    Standing root (unit :: done) start later := by
  obtain ⟨rfl, _, puts⟩ := SourceUnit.puts_of_write delivering.unlinked delivering.reaches
    plain.proper plain.given plain.text written
  have usable : later.IsUsable := by
    have left := SourceUnit.isUsable_write unit root standing.usable
    rwa [written] at left
  refine ⟨standing.keeps.trans puts.keeps, usable, List.forall_mem_cons.mpr ⟨?_, ?_⟩⟩
  · exact SourceUnit.write_again standing.usable delivering.unlinked delivering.reaches plain written
      (.refl later) usable rfl
  · intro other inside
    have different : output ++ other.relative.names ≠ output ++ unit.relative.names :=
      fun same => apart other inside (List.append_cancel_left same)
    have file := (delivering.holds other inside).2.file
    exact SourceUnit.write_again standing.usable delivering.unlinked delivering.reaches
      (plainDone other inside) (standing.again other inside) puts.keeps usable
      (((puts.settled _ different).entryAt? file).trans file.symm)

/-- The images of related elements under a partial function that relates them. -/
theorem filterMap_eq_of_forall₂ {α β : Type} {f : α → Option β} {elements : List α}
    {images : List β} (related : List.Forall₂ (fun element image => f element = some image)
      elements images) : elements.filterMap f = images := by
  induction related with
  | nil => rfl
  | cons same _ hypothesis => rw [List.filterMap_cons_some same, hypothesis]

/-- However the work on the kept models was ordered, the units that it was done on are left
standing. -/
theorem standing_of_history
    (emitted : List.Forall₂ (fun entry unit => Bean.emit options index entry.2 = .ok unit)
      kept units)
    (plain : ∀ unit ∈ units, unit.relative.IsPlain)
    (distinct : (units.map fun unit => unit.relative.names).Nodup)
    (start : Delivering root output before [] host.files) (usable : host.files.IsUsable)
    (history : Pool.History (task options index root) kept host results after)
    (once : (results.map Prod.fst).Nodup)
    (fine : ∀ entry ∈ results, ∃ outcome, entry.2 = .ok outcome) :
    Standing root (results.filterMap fun entry => units[entry.1]?) host.files after.files := by
  induction history with
  | start => exact ⟨.refl _, usable, by simp⟩
  | cancel _ hypothesis => exact hypothesis once fine
  | @work results between position entry result last prior there worked hypothesis =>
      obtain ⟨fresh, onceBefore⟩ := List.nodup_cons.mp once
      obtain ⟨⟨outcome, rfl⟩, fineBefore⟩ := List.forall_mem_cons.mp fine
      obtain ⟨done, delivering, written⟩ :=
        delivering_of_history emitted plain distinct start prior onceBefore fineBefore
      obtain ⟨bound, rfl⟩ := List.getElem?_eq_some_iff.mp there
      have inside : position < units.length := emitted.length_eq ▸ bound
      have own : Bean.emit options index kept[position].2 = .ok units[position] :=
        emitted.get bound inside
      obtain ⟨path, wrote, rfl⟩ := work_eq_some_ok own worked
      have found := written.imp fun _ _ both => both.1
      have standing := hypothesis onceBefore fineBefore
      rw [filterMap_eq_of_forall₂ found] at standing
      have apart := names_ne_of_fresh distinct found fresh inside
      have plainDone : ∀ other ∈ done, other.relative.IsPlain := by
        intro other among
        obtain ⟨_, _, there⟩ := exists_mem_of_forall₂ found among
        exact plain other (List.mem_of_getElem? there)
      rw [List.filterMap_cons, List.getElem?_eq_getElem inside, filterMap_eq_of_forall₂ found]
      exact standing.write delivering (plain _ (List.getElem_mem inside)) plainDone apart wrote

/-- The file of a unit of a kept model is no schema document. -/
theorem exists_name_of_mem_units {models : List Model}
    (package : Identifier.isPackage options.basePackage = true)
    (loadable : ∀ model ∈ models, model.Loadable)
    (emitted : List.Forall₂ (fun entry unit => Bean.emit options index entry.2 = .ok unit)
      (Analysis.ofModels models).kept units) (inside : unit ∈ units) :
    ∃ directories name, unit.relative.names = directories ++ [name] ∧ Path.IsName name ∧
      ¬ Discovery.NameHasExtension name schemaExtensions := by
  obtain ⟨entry, listed, relative⟩ := exists_kept_of_mem_units emitted inside
  have own := Bean.loadable_of_kept loadable listed
  obtain ⟨names, valid, each⟩ := Bean.exists_pathOf_eq package
  refine ⟨names ++ entry.2.space, Bean.fileName entry.2.typeName, ?_,
    Bean.isName_fileName own.typeName, Bean.not_nameHasExtension_fileName own.typeName⟩
  rw [relative, (each own).2, Path.names_descend_empty (Bean.isName_of_mem_placeNames own valid)]
  rfl

/-- What a run with a report has left, where `units` are the units of the models that its plan keeps:
its directories and units are made and written once more without any change. What it changed are
places at or below its output directory and those it made on the way to it, and no document. -/
structure Repeatable (root : Path) (units : List SourceUnit) (before after : FileSystem) : Prop
    extends Standing root units before after where
  output : after.makeDirectories root = (.ok (), after)
  changes : ∀ location, Settled before after location ∨
    ∃ directory name content, location = directory ++ [name] ∧ Path.IsName name ∧
      ¬ Discovery.NameHasExtension name schemaExtensions ∧
      after.entryAt? location = some (.file content)
  apart : ∀ place, ¬ before.Reserved root place → after.entryAt? place = before.entryAt? place

/-- A pool that has worked on all kept models of a plan leaves their units so that the work can be
repeated. -/
theorem repeatable_of_finished {models : List Model} {begun : Host} {outcomes : List Emitted}
    (package : Identifier.isPackage options.basePackage = true)
    (loadable : ∀ model ∈ models, model.Loadable) (usable : before.IsUsable)
    (unlinked : before.Unlinked output) (there : before.madeDirectory? root = some output)
    (directories : before.makeDirectories root = (.ok (), begun.files))
    (reaches : begun.files.Reaches root output)
    (finished : Pool.Finished (task options (Analysis.ofModels models).index root)
      (Analysis.ofModels models).kept begun results (outcomes.map .ok) after) :
    ∃ units, List.Forall₂ (fun entry unit =>
        Bean.emit options (Analysis.ofModels models).index entry.2 = .ok unit)
        (Analysis.ofModels models).kept units ∧
      outcomes = units.map (fun unit => .ok ⟨unit, unit.target root⟩) ∧
      Repeatable root units before after.files := by
  obtain ⟨units, _, emitted, plain, prefixed⟩ := exists_units package loadable
  have distinct := nodup_names_of_pairwise prefixed
  have added := FileSystem.extends_makeDirectories before root
  have usableBegun := usable.makeDirectories root
  rw [directories] at added usableBegun
  have start : Delivering root output before [] begun.files :=
    ⟨reaches, unlinked.of_settled fun below _ => added.settled below, by simp,
      fun location _ => added.settled location⟩
  have delivering := delivering_of_finished emitted plain distinct start finished
  have standing := standing_of_history emitted plain distinct start usableBegun finished.history
    finished.nodup finished.exists_eq
  have keeps := added.keeps.trans standing.keeps
  refine ⟨units, emitted, outcomes_of_finished emitted finished,
    ⟨keeps, standing.usable, fun unit inside => standing.again unit ?_⟩,
    FileSystem.makeDirectories_again directories standing.keeps standing.usable, ?_, ?_⟩
  · obtain ⟨position, bound, rfl⟩ := List.mem_iff_getElem.mp inside
    have within : position < (outcomes.map Except.ok : List (Except WriteError Emitted)).length :=
      finished.length.trans emitted.length_eq ▸ bound
    exact List.mem_filterMap.mpr ⟨_, finished.mem_done (List.getElem?_eq_getElem within),
      List.getElem?_eq_getElem bound⟩
  · intro location
    by_cases own : ∃ unit ∈ units, location = output ++ unit.relative.names
    · obtain ⟨unit, inside, rfl⟩ := own
      obtain ⟨above, name, whole, proper, noDocument⟩ :=
        exists_name_of_mem_units package loadable emitted inside
      refine .inr ⟨output ++ above, name, _, by rw [whole, List.append_assoc], proper, noDocument,
        (delivering.holds unit inside).2.file⟩
    · refine .inl (delivering.settled location fun unit inside same => own ⟨unit, inside, same⟩)
  · intro place free
    have below : ∀ front, place ≠ output ++ front := by
      rintro front rfl
      exact free ⟨output, List.prefix_append _ _, .inl there⟩
    have wrote : after.files.entryAt? place = begun.files.entryAt? place := by
      refine (entryAt?_of_history emitted plain distinct start finished.history finished.nodup
        finished.exists_eq place).resolve_right ?_
      rintro ⟨_, _, _, _, front, _, _, same⟩
      exact below front same
    refine wrote.trans ((added.settled place).resolve_right ?_)
    rintro ⟨vacant, made⟩
    exact free ⟨place, List.prefix_refl _, .inr ⟨vacant, by rwa [directories]⟩⟩

/-- Writing the units that a run has left changes nothing, and has the same outcomes. -/
theorem tryRun_again {schedule : List Pool.Move} (quiet : .cancel ∉ schedule) (jobs : Nat)
    (emitted : List.Forall₂ (fun entry unit => Bean.emit options index entry.2 = .ok unit)
      kept units)
    (again : ∀ unit ∈ units,
      unit.write root host.files = (.ok (unit.target root), host.files))
    (calm : host.cancelled = false) :
    ∃ after, Pool.tryRun schedule jobs (task options index root) kept host =
        (.ok (units.map fun unit => .ok ⟨unit, unit.target root⟩), after) ∧
      after.files = host.files := by
  have conduct : Pool.Conduct (task options index root) kept schedule
      (fun state => state.files = host.files ∧ state.cancelled = false) (fun _ => False) := by
    refine ⟨fun entry listed state holds => ?_, quiet, fun state holds => holds.2⟩
    obtain ⟨files, calm⟩ := holds
    obtain ⟨unit, inside, own⟩ := exists_mem_of_forall₂ emitted.flip listed
    have wrote := again unit inside
    rw [← files] at wrote
    have worked : (task options index root).work entry state =
        (some (.ok (.ok ⟨unit, unit.target root⟩)),
          ((state.tell (renderedEvent unit entry.2)).withFiles state.files).tell
            (.trace "WRITER" ("wrote " ++ (unit.target root).text))) := by
      simp only [task, emitAndWrite, own, Host.tell, wrote]
    exact ⟨_, _, worked, ⟨files, calm⟩, by simp⟩
  obtain ⟨⟨files, _⟩, ended⟩ := conduct.tryRun host ⟨rfl, calm⟩ jobs
  obtain ⟨outcomes, same⟩ := ended.resolve_right (by simp)
  have ran : Pool.tryRun schedule jobs (task options index root) kept host =
      (.ok outcomes, (Pool.tryRun schedule jobs (task options index root) kept host).2) :=
    Prod.ext same rfl
  obtain ⟨results, finished⟩ := Pool.exists_finished_of_tryRun ran
  rw [outcomes_of_finished emitted finished] at ran
  exact ⟨_, ran, files⟩

/-- Carrying out a plan once more changes nothing, and has the same report. -/
theorem writeAll_again {schedule : List Pool.Move} (quiet : .cancel ∉ schedule)
    (settings : Settings) (made : Plan)
    (emitted : List.Forall₂ (fun entry unit =>
      Bean.emit options made.analysis.index entry.2 = .ok unit) made.analysis.kept units)
    (output : host.files.makeDirectories settings.outputDir = (.ok (), host.files))
    (again : ∀ unit ∈ units, unit.write settings.outputDir host.files =
      (.ok (unit.target settings.outputDir), host.files))
    (calm : host.cancelled = false) :
    ∃ last, writeAll schedule settings options made host =
        (.ok (report made (made.analysis.kept.zip
          (units.map fun unit => .ok ⟨unit, unit.target settings.outputDir⟩))), last) ∧
      last.files = host.files := by
  obtain ⟨after, ran, unchanged⟩ := tryRun_again quiet settings.jobs emitted again calm
  have begun : host.withFiles host.files = host := rfl
  unfold writeAll
  simp only [output, begun, ran]
  exact ⟨_, rfl, (files_finish settings made _ after).trans unchanged⟩

/-- A plan that cannot be made for its schema root fails with the error of the discovery. -/
theorem ofQuery_of_plan {schedule : List Pool.Move} {settings : Settings} {error : DiscoveryError}
    (planned : (plan schedule settings host).1 = .error (.discovery error)) :
    (Discovery.ofQuery host.files ⟨settings.schemaRoot, schemaExtensions⟩).1 = .error error := by
  unfold plan at planned
  split at planned
  · next failure between loaded =>
      cases planned
      unfold Loading.ofRoot at loaded
      split at loaded
      · next error events found =>
          cases loaded
          exact congrArg Prod.fst found
      · split at loaded <;> cases loaded
  · split at planned <;> cases planned

/-- Where a discovery has the same outcome and documents load the same, another run has the same
plan. -/
theorem plan_again {schedule : List Pool.Move} (quiet : .cancel ∉ schedule) {settings : Settings}
    {discovery : Discovery}
    (found : (Discovery.ofQuery host.files ⟨settings.schemaRoot, schemaExtensions⟩).1 =
      .ok discovery) (calm : host.cancelled = false) :
    ∃ after, plan schedule settings host =
        (.ok (.ofLoading (loadingOf host.files discovery)), after) ∧
      after.files = host.files ∧ after.cancelled = false := by
  obtain ⟨idle, ended⟩ := plan_cases quiet settings host
  rcases ended with ⟨error, failed⟩ | ⟨_, requested⟩ | ⟨made, same, _⟩
  · rw [ofQuery_of_plan failed] at found
    cases found
  · rw [calm] at requested
    cases requested
  · have planned : plan schedule settings host = (.ok made, (plan schedule settings host).2) :=
      Prod.ext same rfl
    obtain ⟨other, log, outcome, rfl, _⟩ := exists_discovery_of_plan planned
    rw [outcome] at found
    cases found
    exact ⟨_, planned, idle.files, idle.cancelled.trans calm⟩

/-- What a run makes is not in the way of the documents of a query. No place at or below the output
directory, or at or below a directory that is made on the way to it, is where a link leads that the
discovery comes to, or where such a link has its way end because nothing is there; nor is it where the
way to a missing root ends. No directory that was made is one that the discovery would refuse to enter
for the length of its path. -/
structure Aside (query : Discovery.Query) (outputDir : Path) (before after : FileSystem) :
    Prop where
  root : before.pathExists query.root = false → ∀ place, before.ComesTo query.root place →
    ¬ before.Reserved outputDir place
  links : ∀ stop ∈ Discovery.stops before query, ∀ leg ∈ stop.legs before, ∀ target,
    before.entryAt? leg.visit.location = some (.link target) →
      ∀ place, before.ComesTo leg.visit.path place → ¬ before.Reserved outputDir place
  short : ∀ stop ∈ Discovery.stops after query, ∀ leg ∈ stop.legs after,
    before.entryAt? leg.visit.location = none →
      after.entryAt? leg.visit.location = some .directory →
        FileSystem.refusal? leg.visit.path = none

/-- A run whose output is aside from its documents goes unnoticed by their discovery. -/
theorem Repeatable.unnoticed {after : FileSystem} (repeatable : Repeatable root units before after)
    {schemaRoot : Path} (aside : Aside ⟨schemaRoot, schemaExtensions⟩ root before after)
    {discovery : Discovery} {log : List Event}
    (outcome : Discovery.ofQuery before ⟨schemaRoot, schemaExtensions⟩ = (.ok discovery, log)) :
    Discovery.Unnoticed ⟨schemaRoot, schemaExtensions⟩ before after := by
  refine ⟨repeatable.keeps, repeatable.changes, ?_, ?_, aside.short⟩
  · rcases Discovery.ofQuery_cases outcome with ⟨⟨error, missing⟩, _⟩ | ⟨location, found, _⟩
    · have absent : before.pathExists schemaRoot = false := by
        simp [FileSystem.pathExists, missing, Except.isOk, Except.toBool]
      exact FileSystem.find_eq_of_comesTo repeatable.keeps fun place comes =>
        repeatable.apart place (aside.root absent place comes)
    · rw [found]
      exact FileSystem.find_of_keeps repeatable.keeps found
  · intro stop entered leg own target linked
    exact FileSystem.find_eq_of_comesTo repeatable.keeps fun place comes =>
      repeatable.apart place (aside.links stop entered leg own target linked place comes)

/-- After a run with a report, another run with the same settings has the same report and leaves every
file as it is, if the output directory is without links and aside from the documents. -/
theorem run_again (schedule again : Schedule) (registrar : Registrar) (settings : Settings)
    (host later next : Host) (result : Report) (usable : host.files.IsUsable)
    (package : Identifier.isPackage settings.basePackage = true)
    (unlinked : ∀ output, host.files.madeDirectory? settings.outputDir = some output →
      host.files.Unlinked output)
    (ran : run schedule registrar settings host = (.ok result, later))
    (aside : Aside ⟨settings.schemaRoot, schemaExtensions⟩ settings.outputDir host.files later.files)
    (untouched : again.Untouched) (calm : next.cancelled = false)
    (resumed : next.files = later.files) :
    ∃ last, run again registrar settings next = (.ok result, last) ∧ last.files = later.files := by
  obtain ⟨options, loading, begun, outcomes, results, after, chosen, checked, planned, loadable,
    directories, finished, ended⟩ := exists_finished_of_run package ran
  obtain ⟨output, there, reaches⟩ := FileSystem.exists_madeDirectory directories
  have left : after.files = later.files := by
    have unchanged := files_finish settings (.ofLoading loading)
      ((Plan.ofLoading loading).analysis.kept.zip outcomes) after
    rw [ended] at unchanged
    exact unchanged.symm
  obtain ⟨units, emitted, rfl, repeatable⟩ :=
    repeatable_of_finished checked loadable usable (unlinked output there) there directories reaches
      finished
  rw [left] at repeatable
  -- The plan is made once more, for the same documents.
  obtain ⟨discovery, log, found, same, _⟩ := exists_discovery_of_plan (Prod.ext planned rfl)
  obtain rfl : loading = loadingOf host.files discovery := congrArg Plan.loading same
  have unnoticed := repeatable.unnoticed aside found
  have foundAgain : (Discovery.ofQuery next.files ⟨settings.schemaRoot, schemaExtensions⟩).1 =
      .ok discovery := by
    rw [resumed, unnoticed.ofQuery_eq usable.tree repeatable.usable.tree, found]
  obtain ⟨between, plannedAgain, files, stillCalm⟩ := plan_again untouched.1 foundAgain calm
  have loadedAgain : loadingOf next.files discovery = loadingOf host.files discovery := by
    have each : (discovery.files.map fun file => (file, file.load next.files)) =
        discovery.files.map fun file => (file, file.load host.files) := by
      refine List.map_congr_left fun file inside => ?_
      rw [resumed, unnoticed.load_eq usable.tree found inside]
    simp only [loadingOf, each]
  rw [loadedAgain] at plannedAgain
  -- Its units are written once more, which changes nothing.
  obtain ⟨printed, registering⟩ :=
    exists_output_register registrar settings.outputDir between
  have begunAgain : (registrar.register settings.outputDir between).files = later.files :=
    (files_register registrar settings.outputDir between).trans (files.trans resumed)
  have calmAgain : (registrar.register settings.outputDir between).cancelled = false := by
    rw [registering]
    exact stillCalm
  have standing := repeatable.again
  have output := repeatable.output
  rw [← begunAgain] at standing output
  obtain ⟨last, carriedOut, unchanged⟩ := writeAll_again untouched.2 settings
    (.ofLoading (loadingOf host.files discovery)) emitted output standing calmAgain
  refine ⟨last, ?_, unchanged.trans begunAgain⟩
  have reported := congrArg Prod.fst ended
  unfold run
  rw [chosen]
  simp only [plannedAgain]
  exact carriedOut.trans (Prod.ext (congrArg Except.ok reported) rfl)

/-- The output of a run over the shop is aside from its documents. -/
theorem shop_aside : Aside ⟨itemSettings.schemaRoot, schemaExtensions⟩ itemSettings.outputDir
    shopHost.files (run .free .note itemSettings shopHost).2.files := by
  refine ⟨fun missing => ?_, fun stop _ leg _ target linked => ?_, ?_⟩
  · exact absurd missing (by decide +kernel)
  · have unlinked : shopHost.files.Unlinked leg.visit.location :=
      FileSystem.unlinked_of_entries (by simp [shopHost, Host.ofFiles])
    exact absurd linked (unlinked _ (List.prefix_refl _) target)
  · simp only [run, plan, Loading.ofRoot]
    rw [shop_query]
    decide +kernel

/-- A run over the shop is repeated: both leave out four of the six documents. -/
theorem shop_again :
    ∃ result later last, run .free .note itemSettings shopHost = (.ok result, later) ∧
      result.discovered = 6 ∧
      result.written =
        [⟨"o/com/example/Address.java"⟩, ⟨"o/com/example/billing/Invoice.java"⟩] ∧
      Aside ⟨itemSettings.schemaRoot, schemaExtensions⟩ itemSettings.outputDir shopHost.files
        later.files ∧
      run .free .note itemSettings (.ofFiles later.files) = (.ok result, last) ∧
      last.files = later.files := by
  obtain ⟨result, later, ran, discovered, _, written⟩ := shop_ended
  have noLink : ∀ location, shopHost.files.Unlinked location :=
    fun location => FileSystem.unlinked_of_entries (by simp [shopHost, Host.ofFiles])
  have aside := shop_aside
  rw [ran] at aside
  obtain ⟨last, same, left⟩ := run_again .free .free .note itemSettings shopHost later
    (.ofFiles later.files) result (by decide +kernel) (by decide +kernel)
    (fun output _ => noLink output) ran aside ⟨by decide, by decide⟩ rfl rfl
  exact ⟨result, later, last, ran, discovered, written, aside, same, left⟩

/-- Settings whose schema root is written with a detour through the output directory. -/
def crossedSettings : Settings := ⟨⟨"x/../s"⟩, ⟨"x"⟩, "com.example", 1, false, []⟩

/-- Where the way to the schema root ends at the missing output directory, there are no documents, until
a run makes that directory. The next run has another report, and writes a file. -/
theorem crossed_finds_more :
    ∃ later last, (∀ location, itemHost.files.Unlinked location) ∧
      itemHost.files.madeDirectory? crossedSettings.outputDir = some ["x"] ∧
      itemHost.files.pathExists crossedSettings.schemaRoot = false ∧
      later.files.find crossedSettings.schemaRoot = .ok (["s"], .directory) ∧
      run .free .note crossedSettings itemHost = (.ok ⟨0, 0, 0, [], [], []⟩, later) ∧
      run .free .note crossedSettings (.ofFiles later.files) =
        (.ok ⟨1, 1, 1, [⟨"x/com/example/Item.java"⟩], [], []⟩, last) ∧
      last.files ≠ later.files := by
  have ended : (run .free .note crossedSettings itemHost).1 = .ok ⟨0, 0, 0, [], [], []⟩ := by
    decide +kernel
  have endedAgain : (run .free .note crossedSettings
      (.ofFiles (run .free .note crossedSettings itemHost).2.files)).1 =
        .ok ⟨1, 1, 1, [⟨"x/com/example/Item.java"⟩], [], []⟩ := by
    decide +kernel
  refine ⟨_, _, fun location => FileSystem.unlinked_of_entries (by simp [itemHost, Host.ofFiles]),
    by decide +kernel, by decide +kernel, by decide +kernel, Prod.ext ended rfl,
    Prod.ext endedAgain rfl, by decide +kernel⟩

end Generation

end SchemaBeans
