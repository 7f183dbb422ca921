import SchemaBeans.Proofs.Chains
import SchemaBeans.Proofs.Delivery

/-!
# What is left where a run stops

One worker that fails has done its work on the items before the one at which it
failed, and none on the items behind it. A run that stops with an error of writing
has therefore written the units before the one that it could not write.
-/

namespace SchemaBeans

namespace Pool

variable {ι σ ρ ε : Type} {task : Task ι σ (Except ε ρ)} {items : List ι} {initial state : σ}
  {schedule : List Move} {done : List (Nat × Except ε ρ)}

/-- Until its next step a worker can only be asked to stop. -/
theorem exists_requested_untilStep {κ τ π : Type} (task : Task κ τ π) (moves : List Move)
    (state : τ) : ∃ requests, (task.untilStep moves state).2 = task.requested requests state := by
  fun_induction Task.untilStep task moves state with
  | case1 | case2 => exact ⟨[], rfl⟩
  | case3 worker moves state hypothesis => exact hypothesis
  | case4 moves state hypothesis =>
      obtain ⟨requests, same⟩ := hypothesis
      exact ⟨.cancel :: requests, same⟩

/-- Waiting for the next step does nothing to guarded work but request cancellation. -/
theorem exists_untilStep_guardedTask (task : Task ι σ (Except ε ρ)) (moves : List Move)
    (guarded : Guarded ε σ) :
    ∃ requests, ((guardedTask task).untilStep moves guarded).2 =
      { guarded with state := task.requested requests guarded.state } := by
  obtain ⟨requests, same⟩ := exists_requested_untilStep task moves guarded.state
  exact ⟨requests, by rw [untilStep_guardedTask, same]⟩

/-- After a failure a worker alone works on nothing more. -/
theorem Solo.exists_requested (task : Task ι σ (Except ε ρ)) (schedule : List Move)
    (items : List ι) {guarded : Guarded ε σ} {failure : Failure ε}
    (failed : guarded.failure = some failure) :
    ∃ moves, (Solo.ofItems (guardedTask task) schedule items guarded).state =
      ⟨task.requested moves guarded.state, some failure⟩ := by
  cases items with
  | nil => exact ⟨schedule, by rw [Solo.ofItems, requested_guardedTask, failed]⟩
  | cons item rest =>
      obtain ⟨moves, looked⟩ := exists_untilStep_guardedTask task schedule guarded
      rcases Solo.ofItems_cons (guardedTask task) schedule item rest guarded with
        ⟨_, same⟩ | ⟨cleared, _⟩
      · exact ⟨moves, by rw [same, looked, failed]⟩
      · rw [looked] at cleared
        simp [guardedTask, failed] at cleared

/-- A worker alone that fails has worked on the items before the one at which it fails. -/
theorem Solo.exists_failed {front rest : List ι} {error : ε} (whole : items = front ++ rest)
    (prior : History task items initial done state)
    (failed : (Solo.ofItems (guardedTask task) schedule rest ⟨state, none⟩).state.failure =
      some (.failed error)) :
    ∃ (worked : List ι) (item : ι) (unworked : List ι) (results : List ρ) (before after : σ)
        (moves : List Move),
      rest = worked ++ item :: unworked ∧ results.length = worked.length ∧
      History task items initial ((placed front.length (results.map .ok)).reverse ++ done) before ∧
      task.work item before = (some (.error error), after) ∧
      (Solo.ofItems (guardedTask task) schedule rest ⟨state, none⟩).state.state =
        task.requested moves after := by
  induction rest generalizing front done state schedule with
  | nil =>
      rw [Solo.ofItems, requested_guardedTask] at failed
      cases failed
  | cons item rest hypothesis =>
      obtain ⟨first, looked⟩ :=
        exists_untilStep_guardedTask task schedule ⟨state, none⟩
      rcases Solo.ofItems_cons (guardedTask task) schedule item rest ⟨state, none⟩ with
        ⟨stopped, _⟩ | ⟨_, moves, before, ready, worked⟩
      · rw [looked] at stopped
        simp [guardedTask] at stopped
      · obtain ⟨second, waited⟩ := exists_untilStep_guardedTask task
          ((guardedTask task).untilStep schedule ⟨state, none⟩).1
          ((guardedTask task).untilStep schedule ⟨state, none⟩).2
        rw [← ready, looked] at waited
        obtain rfl : before = ⟨task.requested second (task.requested first state), none⟩ := waited
        have begun := (prior.requested first).requested second
        generalize task.requested second (task.requested first state) = here at begun worked
        rcases worked with ⟨later, crashed, same⟩ | ⟨result, later, worked, same⟩
        · rw [same] at failed
          rcases guardedWork_cases task item ⟨here, none⟩ with
            own | ⟨_, _, own⟩ | ⟨_, _, _, own⟩ | ⟨_, _, _, own⟩ <;>
            rw [show guardedWork task item ⟨here, none⟩ = (none, later) from crashed] at own <;>
            cases own
          cases failed
        · rw [same] at failed ⊢
          have there : items[front.length]? = some item := by simp [whole]
          have longer : items = (front ++ [item]) ++ rest := by simp [whole]
          rcases guardedWork_cases task item ⟨here, none⟩ with
            own | ⟨_, _, own⟩ | ⟨value, after, work, own⟩ | ⟨error, after, work, own⟩ <;>
            rw [show guardedWork task item ⟨here, none⟩ = (some result, later) from worked] at own <;>
            cases own
          · -- The worker was stopped: that is another failure.
            obtain ⟨_, ended⟩ := Solo.exists_requested task moves rest
              (show (Guarded.fail ⟨here, none⟩ (.halted .cancelled) : Guarded ε σ).failure =
                some (.halted .cancelled) from rfl)
            simp only at failed
            rw [ended] at failed
            cases failed
          · obtain ⟨worked, next, unworked, results, before, last, requests, parts, length, history,
              stopped, ended⟩ := hypothesis longer (.work begun there work) failed
            refine ⟨item :: worked, next, unworked, value :: results, before, last, requests,
              by rw [parts]; rfl, by simp [length], ?_, stopped, ended⟩
            rw [List.length_append] at history
            simpa using history
          · obtain ⟨requests, ended⟩ := Solo.exists_requested task moves
              rest (show (Guarded.fail ⟨after, none⟩ (.failed error) : Guarded ε σ).failure =
                some (.failed error) from rfl)
            simp only at failed ⊢
            rw [ended] at failed ⊢
            cases failed
            exact ⟨[], item, rest, [], here, after, requests, rfl, rfl, by simpa using begun, work,
              rfl⟩

/-- One worker that fails has worked on the items before the one at which it fails, in their order,
and has done nothing after it. -/
theorem exists_failed_of_tryRun {jobs : Nat} {error : ε} {later : σ} (alone : jobs ≤ 1)
    (ran : tryRun schedule jobs task items state = (.error (.failed error), later)) :
    ∃ (worked : List ι) (item : ι) (unworked : List ι) (results : List ρ) (before after : σ)
        (moves : List Move),
      items = worked ++ item :: unworked ∧ results.length = worked.length ∧
      History task items state (placed 0 (results.map .ok)).reverse before ∧
      task.work item before = (some (.error error), after) ∧
      later = task.requested moves after := by
  have single : min jobs items.length ≤ 1 := Nat.le_trans (Nat.min_le_left _ _) alone
  simp only [tryRun, run, if_pos single, runAlone, Prod.mk.injEq] at ran
  obtain ⟨ended, rfl⟩ := ran
  have failed : (Solo.ofItems (guardedTask task) schedule items ⟨state, none⟩).state.failure =
      some (.failed error) := by
    split at ended
    · next failure stopped =>
        cases ended
        exact stopped
    · cases ended
    · split at ended <;> cases ended
  obtain ⟨worked, item, unworked, results, before, after, moves, parts, length, history, stopped,
    same⟩ := Solo.exists_failed (List.nil_append items).symm .start failed
  rw [List.append_nil] at history
  exact ⟨worked, item, unworked, results, before, after, moves, parts, length, history, stopped, same⟩

end Pool

namespace Generation

open FileSystem (Settled Unlinked Extends)

variable {root : Path} {output location : Location} {before : FileSystem} {units : List SourceUnit}
  {options : EmitOptions} {index : Index} {kept : List Numbered} {host after : Host}
  {results : List (Nat × Except WriteError Emitted)}

/-- Requests for cancellation leave the file system as it is. -/
theorem files_requested (moves : List Pool.Move) (host : Host) :
    ((task options index root).requested moves host).files = host.files := by
  induction moves generalizing host with
  | nil => rfl
  | cons move moves hypothesis =>
      cases move with
      | step worker => exact hypothesis host
      | cancel => exact hypothesis host.cancel

/-- What writing a plain unit changes, below an output directory without links: places on the way to
its file, and the file only if it succeeds. -/
theorem entryAt?_write_plain {files : FileSystem} {unit : SourceUnit}
    (unlinked : files.Unlinked output) (reaches : files.Reaches root output)
    (plain : unit.relative.IsPlain) (location : Location) :
    (unit.write root files).2.entryAt? location = files.entryAt? location ∨
      ∃ front, front ≠ [] ∧ front <+: unit.relative.names ∧ location = output ++ front ∧
        (front = unit.relative.names → ∃ path, (unit.write root files).1 = .ok path) := by
  obtain ⟨directories, name, whole⟩ :=
    (List.eq_nil_or_concat' unit.relative.names).resolve_left plain.given
  have proper := plain.proper
  have placed := plain.text
  rw [whole] at proper placed ⊢
  rcases SourceUnit.entryAt?_write unlinked reaches proper placed location with
    same | ⟨front, given, above, same⟩ | ⟨same, written⟩
  · exact .inl same
  · refine .inr ⟨front, given, above.trans (List.prefix_append _ _), same, ?_⟩
    rintro rfl
    exact absurd above.length_le (by simp)
  · exact .inr ⟨_, by simp, List.prefix_refl _, same, fun _ => written⟩

/-- What work on kept models changes: places on the way to the files of their units. -/
theorem entryAt?_of_history
    (emitted : List.Forall₂ (fun entry unit => Bean.emit options index entry.2 = .ok unit)
      kept units)
    (plain : ∀ unit ∈ units, unit.relative.IsPlain)
    (distinct : (units.map fun unit => unit.relative.names).Nodup)
    (start : Delivering root output before [] host.files)
    (history : Pool.History (task options index root) kept host results after)
    (once : (results.map Prod.fst).Nodup)
    (fine : ∀ entry ∈ results, ∃ outcome, entry.2 = .ok outcome) (location : Location) :
    after.files.entryAt? location = host.files.entryAt? location ∨
      ∃ entry ∈ results, ∃ unit, units[entry.1]? = some unit ∧
        ∃ front, front ≠ [] ∧ front <+: unit.relative.names ∧ location = output ++ front := by
  induction history with
  | start => exact .inl rfl
  | cancel _ hypothesis => exact hypothesis once fine
  | @work results between position entry result last prior there worked hypothesis =>
      obtain ⟨_, onceBefore⟩ := List.nodup_cons.mp once
      obtain ⟨⟨outcome, rfl⟩, fineBefore⟩ := List.forall_mem_cons.mp fine
      obtain ⟨done, delivering, _⟩ :=
        delivering_of_history emitted plain distinct start prior onceBefore fineBefore
      obtain ⟨bound, rfl⟩ := List.getElem?_eq_some_iff.mp there
      have inside : position < units.length := emitted.length_eq ▸ bound
      have own : Bean.emit options index kept[position].2 = .ok units[position] :=
        emitted.get bound inside
      obtain ⟨path, wrote, rfl⟩ := work_eq_some_ok own worked
      rcases entryAt?_write_plain delivering.unlinked delivering.reaches
        (plain _ (List.getElem_mem inside)) location with same | ⟨front, given, above, same, _⟩
      · rw [wrote] at same
        rcases hypothesis onceBefore fineBefore with earlier | ⟨entry, listed, elsewhere⟩
        · exact .inl (same.trans earlier)
        · exact .inr ⟨entry, List.mem_cons_of_mem _ listed, elsewhere⟩
      · exact .inr ⟨_, List.mem_cons_self, _, List.getElem?_eq_getElem inside, front, given, above,
          same⟩

/-- Work on a model that has a unit fails when the unit cannot be written. -/
theorem work_eq_some_error {unit : SourceUnit} {entry : Numbered} {error : WriteError}
    (emitted : Bean.emit options index entry.2 = .ok unit)
    (worked : (task options index root).work entry host = (some (.error error), after)) :
    unit.write root host.files = (.error error, after.files) := by
  simp only [task, emitAndWrite, emitted] at worked
  split at worked
  · next error files failed =>
      cases worked
      exact failed
  · cases worked

/-- A unit that cannot be written is named by the error, or its directory is. -/
theorem path_of_write {unit : SourceUnit} {files later : FileSystem} {error : WriteError}
    (failed : unit.write root files = (.error error, later)) :
    error.path = unit.target root ∨ error.path = unit.targetDirectory root := by
  unfold SourceUnit.write at failed
  split at failed
  · cases failed
    exact .inr rfl
  · split at failed <;> cases failed
    exact .inl rfl

/-- The results of one worker, by position. -/
theorem placed_spec {outcomes : List Emitted}
    (order : results = (Pool.placed 0 (outcomes.map .ok)).reverse) :
    (results.map Prod.fst).Nodup ∧ ∀ entry ∈ results, ∃ outcome,
      outcomes[entry.1]? = some outcome ∧ entry.2 = .ok outcome := by
  rw [order]
  refine ⟨?_, fun entry inside => ?_⟩
  · rw [List.map_reverse, Pool.map_fst_placed]
    exact (List.reverse_perm _).nodup_iff.mpr List.nodup_range'
  · have there := Pool.mem_placed.mp (List.mem_reverse.mp inside)
    rw [List.getElem?_map] at there
    obtain ⟨outcome, found, same⟩ := Option.map_eq_some_iff.mp there
    exact ⟨outcome, found, same.symm⟩

/-- What a run leaves that could not write the unit at a position. The units before it are delivered.
Where its own file and those behind it would be, everything is as before the run, unless a directory
was made there on the way to the output directory. Elsewhere directories may have been made. -/
structure Stopped (root : Path) (options : EmitOptions) (plan : Plan) (output : Location)
    (units : List SourceUnit) (position : Nat) (before after : FileSystem) (error : WriteError) :
    Prop where
  emitted : plan.analysis.kept.mapM (fun entry =>
    Bean.emit options plan.analysis.index entry.2) = .ok units
  failed : ∃ unit, units[position]? = some unit ∧
    (error.path = unit.target root ∨ error.path = unit.targetDirectory root)
  delivered : ∀ unit ∈ units.take position, after.find (unit.target root) =
    .ok (output ++ unit.relative.names, .file (.text (SourceUnit.clean unit.source)))
  waiting : ∀ unit ∈ units.drop position,
    after.entryAt? (output ++ unit.relative.names) =
        before.entryAt? (output ++ unit.relative.names) ∨
      before.entryAt? (output ++ unit.relative.names) = none ∧
        (before.makeDirectories root).2.entryAt? (output ++ unit.relative.names) =
          some .directory ∧
        after.entryAt? (output ++ unit.relative.names) = some .directory
  settled : ∀ location, (∀ unit ∈ units.take position, location ≠ output ++ unit.relative.names) →
    Settled before after location

/-- Of two units at different positions neither is at or above the other. -/
theorem not_prefix_of_getElem?
    (apart : units.Pairwise fun left right => ¬ left.relative.names <+: right.relative.names ∧
      ¬ right.relative.names <+: left.relative.names)
    {first second : Nat} (earlier : first < second) {unit other : SourceUnit}
    (found : units[first]? = some unit) (foundToo : units[second]? = some other) :
    ¬ other.relative.names <+: unit.relative.names := by
  obtain ⟨bound, rfl⟩ := List.getElem?_eq_some_iff.mp found
  obtain ⟨boundToo, rfl⟩ := List.getElem?_eq_some_iff.mp foundToo
  exact (List.pairwise_iff_getElem.mp apart first second bound boundToo earlier).2

/-- One worker that has worked on the first models has delivered their units. -/
theorem delivering_of_placed {outcomes : List Emitted}
    (emitted : List.Forall₂ (fun entry unit => Bean.emit options index entry.2 = .ok unit)
      kept units)
    (plain : ∀ unit ∈ units, unit.relative.IsPlain)
    (distinct : (units.map fun unit => unit.relative.names).Nodup)
    (start : Delivering root output before [] host.files)
    (history : Pool.History (task options index root) kept host results after)
    (order : results = (Pool.placed 0 (outcomes.map .ok)).reverse) :
    Delivering root output before (units.take outcomes.length) after.files := by
  obtain ⟨once, given⟩ := placed_spec order
  obtain ⟨done, delivering, written⟩ := delivering_of_history emitted plain distinct start history
    once fun entry inside => (given entry inside).imp fun _ both => both.2
  refine delivering.of_mem_iff fun unit => ⟨fun inside => ?_, fun inside => ?_⟩
  · obtain ⟨entry, among, found, _⟩ := exists_mem_of_forall₂ written inside
    obtain ⟨outcome, there, _⟩ := given entry among
    rw [← List.getElem?_take_of_lt (List.getElem?_eq_some_iff.mp there).1] at found
    exact List.mem_of_getElem? found
  · obtain ⟨position, there⟩ := List.getElem?_of_mem inside
    have short : position < outcomes.length := by
      have within := (List.getElem?_eq_some_iff.mp there).1
      rw [List.length_take] at within
      omega
    rw [List.getElem?_take_of_lt short] at there
    have listed : (position, .ok outcomes[position]) ∈ results := by
      rw [order]
      refine List.mem_reverse.mpr (Pool.mem_placed.mpr ?_)
      rw [List.getElem?_map, List.getElem?_eq_getElem short]
      rfl
    obtain ⟨other, among, found, _⟩ := exists_mem_of_forall₂ written.flip listed
    rw [there] at found
    cases found
    exact among

/-- When one worker could not write a unit, the files of that and of the units behind it are as they
were before the worker began. -/
theorem entryAt?_of_failed {outcomes : List Emitted} {unit other : SourceUnit} {files : FileSystem}
    {error : WriteError}
    (emitted : List.Forall₂ (fun entry unit => Bean.emit options index entry.2 = .ok unit)
      kept units)
    (plain : ∀ unit ∈ units, unit.relative.IsPlain)
    (apart : units.Pairwise fun left right => ¬ left.relative.names <+: right.relative.names ∧
      ¬ right.relative.names <+: left.relative.names)
    (start : Delivering root output before [] host.files)
    (history : Pool.History (task options index root) kept host results after)
    (order : results = (Pool.placed 0 (outcomes.map .ok)).reverse)
    (there : units[outcomes.length]? = some unit)
    (failed : unit.write root after.files = (.error error, files))
    (inside : other ∈ units.drop outcomes.length) :
    files.entryAt? (output ++ other.relative.names) =
      host.files.entryAt? (output ++ other.relative.names) := by
  have distinct := nodup_names_of_pairwise apart
  obtain ⟨once, given⟩ := placed_spec order
  obtain ⟨offset, found⟩ := List.getElem?_of_mem inside
  rw [List.getElem?_drop] at found
  have delivering := delivering_of_placed emitted plain distinct start history order
  have write : files.entryAt? (output ++ other.relative.names) =
      after.files.entryAt? (output ++ other.relative.names) := by
    have changes := entryAt?_write_plain delivering.unlinked delivering.reaches
      (plain unit (List.mem_of_getElem? there)) (output ++ other.relative.names)
    rw [failed] at changes
    refine changes.resolve_right ?_
    rintro ⟨front, _, above, same, written⟩
    obtain rfl := List.append_cancel_left same
    cases offset with
    | zero =>
        -- The unit is the one that could not be written.
        rw [Nat.add_zero, there] at found
        cases found
        obtain ⟨_, succeeded⟩ := written rfl
        cases succeeded
    | succ offset => exact not_prefix_of_getElem? apart (by omega) there found above
  have earlier := entryAt?_of_history emitted plain distinct start history once
    (fun entry inside => (given entry inside).imp fun _ both => both.2)
    (output ++ other.relative.names)
  refine write.trans (earlier.resolve_right ?_)
  rintro ⟨entry, among, written, foundToo, front, _, above, same⟩
  obtain rfl := List.append_cancel_left same
  obtain ⟨outcome, present, _⟩ := given entry among
  have short := (List.getElem?_eq_some_iff.mp present).1
  exact not_prefix_of_getElem? apart (by omega) foundToo found above

/-- One worker that cannot write a unit has delivered those before it, and touched no file of the
others. -/
theorem exists_stopped_of_tryRun {schedule : List Pool.Move} {jobs : Nat} {loading : Loading}
    (package : Identifier.isPackage options.basePackage = true)
    (loadable : ∀ model ∈ loading.models.map Prod.snd, model.Loadable)
    (unlinked : before.Unlinked output) (made : (before.makeDirectories root).2 = host.files)
    (reaches : host.files.Reaches root output) (alone : jobs ≤ 1) {error : WriteError}
    {later : Host}
    (ran : Pool.tryRun schedule jobs (task options (Plan.ofLoading loading).analysis.index root)
      (Plan.ofLoading loading).analysis.kept host = (.error (.failed error), later)) :
    ∃ units position,
      Stopped root options (.ofLoading loading) output units position before later.files error := by
  obtain ⟨units, mapped, emitted, plain, apart⟩ := exists_units package loadable
  have distinct := nodup_names_of_pairwise apart
  have extended : Extends before host.files := made ▸ FileSystem.extends_makeDirectories before root
  have start : Delivering root output before [] host.files :=
    ⟨reaches, unlinked.of_settled fun below _ => extended.settled below, by simp,
      fun location _ => extended.settled location⟩
  obtain ⟨worked, entry, unworked, outcomes, between, after, moves, parts, length, history, failed,
    rfl⟩ := Pool.exists_failed_of_tryRun alone ran
  rw [files_requested]
  -- The unit that could not be written is at the position behind those that were.
  obtain ⟨unit, there, own⟩ : ∃ unit, units[outcomes.length]? = some unit ∧
      Bean.emit options (Plan.ofLoading loading).analysis.index entry.2 = .ok unit := by
    have within : outcomes.length < (Plan.ofLoading loading).analysis.kept.length := by
      simp [parts, length]
    have bound : outcomes.length < units.length := emitted.length_eq ▸ within
    have here : (Plan.ofLoading loading).analysis.kept[outcomes.length] = entry := by
      simp [parts, length]
    exact ⟨_, List.getElem?_eq_getElem bound, here ▸ emitted.get within bound⟩
  have wrote := work_eq_some_error own failed
  have delivering := delivering_of_placed emitted plain distinct start history rfl
  have further : Extends between.files after.files := by
    have added := FileSystem.extends_makeDirectories between.files (unit.targetDirectory root)
    rcases SourceUnit.write_cases unit root between.files with ⟨_, same⟩ | ⟨_, _, same⟩
    · rw [wrote] at same
      exact (Prod.mk.inj same).2 ▸ added
    · rw [wrote] at same
      cases (Prod.mk.inj same).1
  have still := delivering.extend further
  refine ⟨units, outcomes.length, mapped, ⟨_, there, path_of_write wrote⟩,
    fun unit inside => still.find inside (plain unit (List.mem_of_mem_take inside)),
    fun other inside => ?_, still.settled⟩
  have same := entryAt?_of_failed emitted plain apart start history rfl there wrote inside
  rw [same, made]
  exact extended.settled _ |>.imp_right fun ⟨vacant, directory⟩ => ⟨vacant, directory, directory⟩

/-- A plan is not refused because of something that could not be written. -/
theorem ne_write_of_plan {schedule : List Pool.Move} {settings : Settings} {failure : RunError}
    (planned : plan schedule settings host = (.error failure, after)) (error : WriteError) :
    failure ≠ .write error := by
  unfold plan at planned
  split at planned
  · next loaded =>
      cases planned
      unfold Loading.ofRoot at loaded
      split at loaded
      · cases loaded
        simp
      · split at loaded <;> cases loaded
        simp
  · split at planned <;> cases planned
    simp

/-- A run of one worker that ends with an error of writing could not make its output directory, and
made some directories at most, or it stopped at one unit. -/
theorem run_stops (schedule : Schedule) (registrar : Registrar) (settings : Settings)
    (host later : Host) (error : WriteError)
    (package : Identifier.isPackage settings.basePackage = true)
    (unlinked : ∀ output, host.files.madeDirectory? settings.outputDir = some output →
      host.files.Unlinked output)
    (alone : settings.jobs = 1)
    (ran : run schedule registrar settings host = (.error (.write error), later)) :
    (error.path = settings.outputDir ∧
        host.files.makeDirectories settings.outputDir = (.error error.error, later.files) ∧
        Extends host.files later.files) ∨
      ∃ options made output units position, settings.emitOptions = .ok options ∧
        (plan schedule.loading settings host).1 = .ok made ∧
        host.files.madeDirectory? settings.outputDir = some output ∧
        Stopped settings.outputDir options made output units position host.files later.files
          error := by
  unfold run at ran
  split at ran
  · cases ran
  · next options chosen =>
      split at ran
      · next failure state planned =>
          cases ran
          exact absurd rfl (ne_write_of_plan planned error)
      · next made between planned =>
          obtain ⟨⟨loading, rfl⟩, loadable, same⟩ := loadable_of_plan planned
          have begun : (registrar.register settings.outputDir between).files = host.files :=
            (files_register registrar settings.outputDir between).trans same
          have added := FileSystem.extends_makeDirectories host.files settings.outputDir
          unfold writeAll at ran
          rw [begun] at ran
          split at ran
          · next refused files directories =>
              cases ran
              rw [directories] at added
              exact .inl ⟨rfl, directories, added⟩
          · next files directories =>
              obtain ⟨output, there, reaches⟩ := FileSystem.exists_madeDirectory directories
              split at ran
              · next failed last stopped =>
                  cases ran
                  have checked : Identifier.isPackage options.basePackage = true := by
                    unfold Settings.emitOptions at chosen
                    split at chosen <;> cases chosen
                    exact package
                  have made : (host.files.makeDirectories settings.outputDir).2 =
                      ((registrar.register settings.outputDir between).withFiles files).files :=
                    congrArg Prod.snd directories
                  obtain ⟨units, position, stopped⟩ := exists_stopped_of_tryRun checked loadable
                    (unlinked output there) made reaches (Nat.le_of_eq alone) stopped
                  exact .inr ⟨options, .ofLoading loading, output, units, position, chosen,
                    congrArg Prod.fst planned, there, stopped⟩
              · cases ran
              · cases ran

/-- A host with the schema of an item, on which the place of its class is taken by a directory. -/
def takenHost : Host :=
  .ofFiles ⟨[(["s"], .directory), (["s", "item.yaml"], .file (.text "typeName: Item\n")),
    (["o"], .directory), (["o", "com"], .directory), (["o", "com", "example"], .directory),
    (["o", "com", "example", "Item.java"], .directory)], []⟩

/-- The run stops at the directory that is in the place of its class. -/
theorem taken_stops :
    ∃ error later options made output units position,
      run .free .note itemSettings takenHost = (.error (.write error), later) ∧
      itemSettings.emitOptions = .ok options ∧
      (plan Schedule.free.loading itemSettings takenHost).1 = .ok made ∧
      takenHost.files.madeDirectory? itemSettings.outputDir = some output ∧
      Stopped itemSettings.outputDir options made output units position takenHost.files later.files
        error := by
  have ended : (run .free .note itemSettings takenHost).1 =
      .error (.write ⟨⟨"o/com/example/Item.java"⟩, .isDirectory⟩) := by decide +kernel
  have ran : run .free .note itemSettings takenHost =
      (.error (.write ⟨⟨"o/com/example/Item.java"⟩, .isDirectory⟩),
        (run .free .note itemSettings takenHost).2) := Prod.ext ended rfl
  have unlinked : ∀ output, takenHost.files.madeDirectory? itemSettings.outputDir = some output →
      takenHost.files.Unlinked output :=
    fun output _ => FileSystem.unlinked_of_entries (by simp [takenHost, Host.ofFiles])
  rcases run_stops .free .note itemSettings takenHost _ _ (by decide +kernel) unlinked rfl ran with
    ⟨same, _⟩ | ⟨options, made, output, units, position, chosen, planned, there, stopped⟩
  · exact absurd same (by decide)
  · exact ⟨_, _, options, made, output, units, position, ran, chosen, planned, there, stopped⟩

/-- Settings whose output directory is written with a detour through the place of a class. -/
def detourSettings : Settings := ⟨⟨"s"⟩, ⟨"o/Item.java/.."⟩, "", 1, false, []⟩

/-- Where a class could not be written there may be a directory after the run, if the path of the
output directory led through it. -/
theorem detour_makes_directory :
    ∃ later, run .free .note detourSettings itemHost =
        (.error (.write ⟨⟨"o/Item.java/../Item.java"⟩, .isDirectory⟩), later) ∧
      itemHost.files.madeDirectory? detourSettings.outputDir = some ["o"] ∧
      itemHost.files.Unlinked ["o"] ∧
      itemHost.files.pathExists ⟨"o/Item.java/../Item.java"⟩ = false ∧
      itemHost.files.entryAt? ["o", "Item.java"] = none ∧
      later.files.entryAt? ["o", "Item.java"] = some .directory := by
  have ended : (run .free .note detourSettings itemHost).1 =
      .error (.write ⟨⟨"o/Item.java/../Item.java"⟩, .isDirectory⟩) := by decide +kernel
  refine ⟨_, Prod.ext ended rfl, by decide +kernel,
    FileSystem.unlinked_of_entries (by simp [itemHost, Host.ofFiles]), by decide +kernel,
    by decide +kernel, by decide +kernel⟩

end Generation

end SchemaBeans
