import Mathlib.Data.List.Perm.Basic
import Mathlib.Data.Set.List
import SchemaBeans.Keyed
import SchemaBeans.Pool
import SchemaBeans.Proofs.Traversal

/-!
# What a pool has done

Whatever its schedule was, a pool that ends with results has worked on each of its
items once, one after the other: `Pool.History` is the order in which this
happened. What every single piece of work preserves is therefore preserved by the
run of a pool.
-/

namespace SchemaBeans.Pool

variable {ι σ ρ : Type}

/-- What happened from one state to another: work on items, one after the other, and requests for
cancellation in between. The results stand with their positions, the latest first. -/
inductive History (task : Task ι σ ρ) (items : List ι) (initial : σ) :
    List (Nat × ρ) → σ → Prop where
  | start : History task items initial [] initial
  | work {done state position item result later} (prior : History task items initial done state)
      (there : items[position]? = some item)
      (worked : task.work item state = (some result, later)) :
      History task items initial ((position, result) :: done) later
  | cancel {done state} (prior : History task items initial done state) :
      History task items initial done (task.cancel state)

variable {task : Task ι σ ρ} {items : List ι} {initial state later : σ} {done : List (Nat × ρ)}
  {results : List ρ}

/-- Work is done on items only. -/
theorem History.position_lt (history : History task items initial done state) :
    ∀ entry ∈ done, entry.1 < items.length := by
  induction history with
  | start => simp
  | work _ there _ hypothesis =>
      exact List.forall_mem_cons.mpr ⟨(List.getElem?_eq_some_iff.mp there).1, hypothesis⟩
  | cancel _ hypothesis => exact hypothesis

/-- Every result comes from work on the item at its position. -/
theorem History.exists_work (history : History task items initial done state) :
    ∀ entry ∈ done, ∃ item before after, items[entry.1]? = some item ∧
      task.work item before = (some entry.2, after) := by
  induction history with
  | start => simp
  | work _ there worked hypothesis =>
      exact List.forall_mem_cons.mpr ⟨⟨_, _, _, there, worked⟩, hypothesis⟩
  | cancel _ hypothesis => exact hypothesis

/-- Each item was worked on once, and the results are in the order of the items. -/
structure Finished (task : Task ι σ ρ) (items : List ι) (initial : σ) (done : List (Nat × ρ))
    (results : List ρ) (later : σ) : Prop where
  history : History task items initial done later
  once : (done.map Prod.fst).Perm (List.range items.length)
  length : results.length = items.length
  ordered : ∀ entry ∈ done, results[entry.1]? = some entry.2

/-- Every result of a finished pool is one of its history. -/
theorem Finished.mem_done (finished : Finished task items initial done results later)
    {position : Nat} {result : ρ} (there : results[position]? = some result) :
    (position, result) ∈ done := by
  have bound : position < items.length := by
    rw [← finished.length]
    exact (List.getElem?_eq_some_iff.mp there).1
  have listed := finished.once.mem_iff.mpr (List.mem_range.mpr bound)
  obtain ⟨⟨_, other⟩, inside, rfl⟩ := List.mem_map.mp listed
  have same := finished.ordered _ inside
  rw [there] at same
  cases same
  exact inside

/-- A finished pool has worked on no item twice. -/
theorem Finished.nodup (finished : Finished task items initial done results later) :
    (done.map Prod.fst).Nodup :=
  finished.once.nodup_iff.mpr List.nodup_range

/-- If all results of a finished pool are values of a function, so are those of its history. -/
theorem Finished.exists_eq {α : Type} {value : α → ρ} {inner : List α}
    (finished : Finished task items initial done (inner.map value) later) :
    ∀ entry ∈ done, ∃ result, entry.2 = value result := by
  intro entry inside
  have there := finished.ordered entry inside
  rw [List.getElem?_map] at there
  obtain ⟨result, _, same⟩ := Option.map_eq_some_iff.mp there
  exact ⟨result, same.symm⟩

/-- The position that a worker holds. -/
def Phase.position? : Phase → Option Nat
  | holding position => some position
  | _ => none

namespace Progress

variable {progress : Progress σ ρ} {worker : Nat} {old new : Phase}

/-- The positions that were taken: those with results and those that workers hold. -/
def claimed (progress : Progress σ ρ) : List Nat :=
  progress.results.map Prod.fst ++ progress.phases.filterMap Phase.position?

/-- What holds of a pool after every step: its results have a history, unless a worker crashed, and
each position was taken once, in order. -/
structure Sound (task : Task ι σ ρ) (items : List ι) (initial : σ) (progress : Progress σ ρ) :
    Prop where
  history : .crashed ∉ progress.phases → History task items initial progress.results progress.state
  once : progress.claimed.Nodup
  below : ∀ position ∈ progress.claimed, position < progress.next

/-- A pool is sound before its first step. -/
theorem sound_start (task : Task ι σ ρ) (items : List ι) (workers : Nat) (state : σ) :
    Sound task items state (.start workers state) := by
  have none : (Progress.start workers state : Progress σ ρ).claimed = [] := by
    simp [claimed, Progress.start, Phase.position?]
  exact ⟨fun _ => .start, by simp [none], by simp [none]⟩

/-- A worker that enters another phase leaves the others in theirs. -/
theorem exists_enter (there : progress.phases[worker]? = some old) (new : Phase) :
    ∃ before after, progress.phases = before ++ old :: after ∧
      (progress.enter worker new).phases = before ++ new :: after := by
  obtain ⟨bound, same⟩ := List.getElem?_eq_some_iff.mp there
  obtain ⟨before, after, whole, _, set⟩ := @List.exists_of_set _ _ new _ bound
  exact ⟨before, after, by rw [← same]; exact whole, set⟩

/-- No worker had crashed if none has when another phase is entered. -/
theorem not_crashed_of_enter (there : progress.phases[worker]? = some old) (whole : old ≠ .crashed)
    (standing : .crashed ∉ (progress.enter worker new).phases) : .crashed ∉ progress.phases := by
  obtain ⟨before, after, phases, entered⟩ := exists_enter there new
  rw [entered, List.mem_append, List.mem_cons, not_or, not_or] at standing
  rw [phases, List.mem_append, List.mem_cons, not_or, not_or]
  exact ⟨standing.1, whole.symm, standing.2.2⟩

/-- A worker that enters another phase gives up the position that it held, and takes the one that it
holds then. -/
theorem claimed_enter (there : progress.phases[worker]? = some old) (new : Phase) :
    (old.position?.toList ++ (progress.enter worker new).claimed).Perm
      (new.position?.toList ++ progress.claimed) := by
  obtain ⟨before, after, phases, entered⟩ := exists_enter there new
  have held : ∀ phase : Phase, (before ++ phase :: after).filterMap Phase.position? =
      before.filterMap Phase.position? ++ (phase.position?.toList ++
        after.filterMap Phase.position?) := by
    intro phase
    rw [List.filterMap_append, List.filterMap_cons]
    cases phase.position? <;> rfl
  have results : (progress.enter worker new).results = progress.results := rfl
  rw [claimed, claimed, results, entered, phases, held, held]
  -- Both sides are the same parts in another order.
  simp only [← List.append_assoc]
  refine (List.perm_append_right_iff _).mpr ?_
  exact List.perm_iff_count.mpr fun position => by simp only [List.count_append]; omega

/-- What a step of a worker does. -/
inductive Stepped (task : Task ι σ ρ) (items : List ι) (progress : Progress σ ρ) (worker : Nat) :
    Progress σ ρ → Prop where
  | idle (ended : ∀ phase, progress.phases[worker]? = some phase → phase.active = false) :
      Stepped task items progress worker progress
  | look (there : progress.phases[worker]? = some .ready) :
      Stepped task items progress worker
        (progress.enter worker (if task.cancelled progress.state then .stopped else .cleared))
  | take (there : progress.phases[worker]? = some .cleared)
      (more : progress.next < items.length) :
      Stepped task items progress worker
        { progress.enter worker (.holding progress.next) with next := progress.next + 1 }
  | leave (there : progress.phases[worker]? = some .cleared)
      (past : items.length ≤ progress.next) :
      Stepped task items progress worker
        { progress.enter worker .stopped with next := progress.next + 1 }
  | work {position item result later}
      (there : progress.phases[worker]? = some (.holding position))
      (found : items[position]? = some item)
      (worked : task.work item progress.state = (some result, later)) :
      Stepped task items progress worker
        { progress.enter worker .ready with
          state := later, results := (position, result) :: progress.results }
  | crash {position item later} (there : progress.phases[worker]? = some (.holding position))
      (found : items[position]? = some item)
      (worked : task.work item progress.state = (none, later)) :
      Stepped task items progress worker { progress.enter worker .crashed with state := later }
  /-- There is no item at the position; no worker takes such a position. -/
  | stray {position} (there : progress.phases[worker]? = some (.holding position))
      (nothing : items[position]? = none) :
      Stepped task items progress worker (progress.enter worker .stopped)

/-- Each step of a worker is one of those that its phase allows. -/
theorem stepped_advance (task : Task ι σ ρ) (items : List ι) (progress : Progress σ ρ)
    (worker : Nat) : Stepped task items progress worker (progress.advance task items worker) := by
  unfold Progress.advance
  split
  · next there => exact .look there
  · next there =>
      by_cases more : progress.next < items.length
      · rw [if_pos more]
        exact .take there more
      · rw [if_neg more]
        exact .leave there (Nat.le_of_not_lt more)
  · next position there =>
      split
      · next item found =>
          unfold Progress.finish
          split
          · next result later worked => exact .work there found worked
          · next later worked => exact .crash there found worked
      · next nothing => exact .stray there nothing
  · next ready cleared holding =>
      refine .idle fun phase there => ?_
      cases phase with
      | ready => exact absurd there ready
      | cleared => exact absurd there cleared
      | holding position => exact absurd there (holding position)
      | stopped | crashed => rfl

/-- A worker that leaves its phase for one that holds no position takes none. -/
theorem Sound.enter (sound : Sound task items initial progress)
    (there : progress.phases[worker]? = some old) (whole : old ≠ .crashed)
    (free : new.position? = none) {next : Nat} (later : progress.next ≤ next) :
    Sound task items initial { progress.enter worker new with next } := by
  have kept := claimed_enter there new
  rw [free, Option.toList_none, List.nil_append] at kept
  refine ⟨fun standing => sound.history (not_crashed_of_enter there whole standing),
    (List.nodup_append.mp (kept.nodup_iff.mpr sound.once)).2.1, fun position inside => ?_⟩
  have before := kept.mem_iff.mp (List.mem_append_right _ inside)
  exact Nat.lt_of_lt_of_le (sound.below _ before) later

/-- A worker takes the next position, which nobody has taken. -/
theorem Sound.take (sound : Sound task items initial progress)
    (there : progress.phases[worker]? = some .cleared) :
    Sound task items initial
      { progress.enter worker (.holding progress.next) with next := progress.next + 1 } := by
  have more : ({ progress.enter worker (.holding progress.next) with
      next := progress.next + 1 } : Progress σ ρ).claimed.Perm
      (progress.next :: progress.claimed) := claimed_enter there (.holding progress.next)
  have fresh : progress.next ∉ progress.claimed :=
    fun inside => Nat.lt_irrefl _ (sound.below _ inside)
  refine ⟨fun standing => sound.history (not_crashed_of_enter there (by simp) standing),
    more.nodup_iff.mpr (List.nodup_cons.mpr ⟨fresh, sound.once⟩), fun position inside => ?_⟩
  rcases List.mem_cons.mp (more.mem_iff.mp inside) with rfl | earlier
  · exact Nat.lt_succ_self _
  · exact Nat.lt_succ_of_lt (sound.below _ earlier)

/-- A worker that works on its item gives a result for the position that it held. -/
theorem Sound.work (sound : Sound task items initial progress) {position : Nat} {item : ι}
    {result : ρ} {later : σ} (there : progress.phases[worker]? = some (.holding position))
    (found : items[position]? = some item)
    (worked : task.work item progress.state = (some result, later)) :
    Sound task items initial
      { progress.enter worker .ready with
        state := later, results := (position, result) :: progress.results } := by
  have same : ({ progress.enter worker .ready with
      state := later, results := (position, result) :: progress.results } :
      Progress σ ρ).claimed.Perm progress.claimed := claimed_enter there .ready
  refine ⟨fun standing => ?_, same.nodup_iff.mpr sound.once,
    fun other inside => sound.below _ (same.mem_iff.mp inside)⟩
  exact .work (sound.history (not_crashed_of_enter there (by simp) standing)) found worked

/-- One step of a worker keeps a pool sound. -/
theorem Sound.advance (sound : Sound task items initial progress) (worker : Nat) :
    Sound task items initial (progress.advance task items worker) := by
  have stepped := stepped_advance task items progress worker
  generalize progress.advance task items worker = after at stepped ⊢
  cases stepped with
  | idle _ => exact sound
  | look there =>
      refine sound.enter there (by simp) ?_ (Nat.le_refl progress.next)
      split <;> rfl
  | take there more => exact sound.take there
  | leave there past => exact sound.enter there (by simp) rfl (Nat.le_succ progress.next)
  | work there found worked => exact sound.work there found worked
  | @crash position _ later there found worked =>
      have stopped : Sound task items initial
          { progress.enter worker .crashed with next := progress.next } :=
        sound.enter there (by simp) rfl (Nat.le_refl progress.next)
      refine ⟨fun standing => absurd ?_ standing, stopped.once, stopped.below⟩
      obtain ⟨before, after, _, entered⟩ := exists_enter there .crashed
      rw [entered]
      simp
  | stray there nothing => exact sound.enter there (by simp) rfl (Nat.le_refl progress.next)

/-- One move of a schedule keeps a pool sound. -/
theorem Sound.move (sound : Sound task items initial progress) (move : Move) :
    Sound task items initial (progress.move task items move) := by
  cases move with
  | step worker => exact sound.advance worker
  | cancel => exact ⟨fun standing => .cancel (sound.history standing), sound.once, sound.below⟩

/-- A pool stays sound under every schedule. -/
theorem Sound.schedule (sound : Sound task items initial progress) (schedule : List Move) :
    Sound task items initial (schedule.foldl (Progress.move task items) progress) := by
  induction schedule generalizing progress with
  | nil => exact sound
  | cons move moves hypothesis => exact hypothesis (sound.move move)

/-- A pool stays sound while its workers come to their ends. -/
theorem Sound.drain (sound : Sound task items initial progress) :
    Sound task items initial (progress.drain task items) := by
  fun_induction Progress.drain task items progress with
  | case1 => exact sound
  | case2 progress worker _ hypothesis => exact hypothesis (sound.advance worker)

end Progress

/-- The results of a pool that ended whole are those of its history. -/
theorem finished_of_collect {progress : Progress σ ρ}
    (sound : progress.Sound task items initial)
    (collected : progress.collect items.length = .ok results) :
    Finished task items initial progress.results results progress.state := by
  unfold Progress.collect at collected
  split at collected
  · cases collected
  · next whole =>
      split at collected
      · next mapped =>
          cases collected
          have each := forall₂_of_mapM_eq_some mapped
          have length : results.length = items.length := by
            rw [← each.length_eq, List.length_range]
          have found : ∀ position, position < items.length →
              progress.results.lookup position = results[position]? := by
            intro position bound
            have inside : position < results.length := length ▸ bound
            have there := each.get (by simpa using bound) inside
            rw [List.getElem?_eq_getElem inside]
            simpa using there
          have history := sound.history (by simpa using whole)
          have distinct : (progress.results.map Prod.fst).Nodup :=
            (List.nodup_append.mp sound.once).1
          refine ⟨history, ?_, length, ?_⟩
          · refine (List.perm_ext_iff_of_nodup distinct List.nodup_range).mpr fun position => ?_
            rw [List.mem_range]
            constructor
            · intro listed
              obtain ⟨entry, inside, rfl⟩ := List.mem_map.mp listed
              exact history.position_lt entry inside
            · intro bound
              have there : progress.results.lookup position = some results[position] := by
                rw [found position bound, List.getElem?_eq_getElem]
              obtain ⟨before, after, same, _⟩ := List.lookup_eq_some_iff.mp there
              rw [same]
              simp
          · intro entry inside
            rw [← found entry.1 (history.position_lt entry inside)]
            exact Keyed.lookup_of_mem distinct inside
      · cases collected

/-- Results with their positions, from some position on. -/
def placed (position : Nat) (results : List ρ) : List (Nat × ρ) :=
  (results.zipIdx position).map Prod.swap

@[simp] theorem placed_nil (position : Nat) : placed position ([] : List ρ) = [] := rfl

@[simp] theorem placed_cons (position : Nat) (result : ρ) (results : List ρ) :
    placed position (result :: results) = (position, result) :: placed (position + 1) results := rfl

/-- Results that are placed have the positions from the first one on. -/
theorem map_fst_placed (position : Nat) (results : List ρ) :
    (placed position results).map Prod.fst = List.range' position results.length := by
  rw [placed, List.map_map]
  exact List.zipIdx_map_snd position results

/-- A result is placed where it stands among the results. -/
theorem mem_placed {entry : Nat × ρ} :
    entry ∈ placed 0 results ↔ results[entry.1]? = some entry.2 := by
  rw [placed, List.mem_map]
  constructor
  · rintro ⟨⟨result, position⟩, listed, rfl⟩
    exact List.mk_mem_zipIdx_iff_getElem?.mp listed
  · intro found
    exact ⟨(entry.2, entry.1), List.mk_mem_zipIdx_iff_getElem?.mpr found, rfl⟩

/-- Requests for cancellation add nothing to what was done. -/
theorem History.requested (history : History task items initial done state) (moves : List Move) :
    History task items initial done (task.requested moves state) := by
  fun_induction Task.requested task moves state with
  | case1 => exact history
  | case2 worker moves state hypothesis => exact hypothesis history
  | case3 moves state hypothesis => exact hypothesis history.cancel

/-- Waiting for the next step adds nothing to what was done. -/
theorem History.untilStep (history : History task items initial done state) (moves : List Move) :
    History task items initial done (task.untilStep moves state).2 := by
  fun_induction Task.untilStep task moves state with
  | case1 | case2 => exact history
  | case3 worker moves state hypothesis => exact hypothesis history
  | case4 moves state hypothesis => exact hypothesis history.cancel

/-- One worker stops before an item, crashes at it, or goes on with a result. -/
theorem Solo.ofItems_cons (task : Task ι σ ρ) (schedule : List Move) (item : ι) (rest : List ι)
    (state : σ) :
    (task.cancelled (task.untilStep schedule state).2 = true ∧
        Solo.ofItems task schedule (item :: rest) state =
          ⟨(task.untilStep schedule state).2, [], some .cancelled⟩) ∨
      task.cancelled (task.untilStep schedule state).2 = false ∧
        ∃ moves before, (moves, before) = task.untilStep (task.untilStep schedule state).1
            (task.untilStep schedule state).2 ∧
          ((∃ later, task.work item before = (none, later) ∧
              Solo.ofItems task schedule (item :: rest) state = ⟨later, [], some .crashed⟩) ∨
            ∃ result later, task.work item before = (some result, later) ∧
              Solo.ofItems task schedule (item :: rest) state =
                { Solo.ofItems task moves rest later with
                  results := result :: (Solo.ofItems task moves rest later).results }) := by
  rw [Solo.ofItems]
  cases stopped : task.cancelled (task.untilStep schedule state).2 with
  | true => exact .inl ⟨rfl, if_pos stopped⟩
  | false =>
      refine .inr ⟨rfl, _, _, rfl, ?_⟩
      simp only [stopped, Bool.false_eq_true, if_false]
      split
      · next later worked => exact .inl ⟨later, worked, rfl⟩
      · next result later worked => exact .inr ⟨result, later, worked, rfl⟩

/-- A worker alone works on item after item. -/
theorem Solo.history {schedule : List Move} {front rest : List ι} (whole : items = front ++ rest)
    (prior : History task items initial done state)
    (standing : (Solo.ofItems task schedule rest state).halt ≠ some .crashed) :
    History task items initial
      ((placed front.length (Solo.ofItems task schedule rest state).results).reverse ++ done)
      (Solo.ofItems task schedule rest state).state := by
  induction rest generalizing front done state schedule with
  | nil => exact prior.requested schedule
  | cons item rest hypothesis =>
      have looked := prior.untilStep schedule
      rcases Solo.ofItems_cons task schedule item rest state with
        ⟨_, same⟩ | ⟨_, moves, before, ready, ⟨later, _, same⟩ | ⟨result, later, worked, same⟩⟩
      · rw [same]
        exact looked
      · rw [same] at standing
        exact absurd rfl standing
      · rw [same] at standing ⊢
        have there : items[front.length]? = some item := by simp [whole]
        have longer : items = (front ++ [item]) ++ rest := by simp [whole]
        have begun : History task items initial done before := by
          have waited := looked.untilStep (task.untilStep schedule state).1
          rwa [← ready] at waited
        have further := hypothesis longer (.work begun there worked) standing
        rw [List.length_append] at further
        simpa using further

/-- A worker alone comes to the end of the items exactly when it has a result for each. -/
theorem Solo.halt_eq_none_iff (task : Task ι σ ρ) (schedule : List Move) (rest : List ι)
    (state : σ) :
    (Solo.ofItems task schedule rest state).halt = none ↔
      (Solo.ofItems task schedule rest state).results.length = rest.length := by
  induction rest generalizing state schedule with
  | nil => simp [Solo.ofItems]
  | cons item rest hypothesis =>
      rcases Solo.ofItems_cons task schedule item rest state with
        ⟨_, same⟩ | ⟨_, moves, before, _, ⟨later, _, same⟩ | ⟨result, later, _, same⟩⟩
      · simp [same]
      · simp [same]
      · rw [same]
        simpa using hypothesis moves later

/-- A worker alone that returns all results has finished, item after item. -/
theorem finished_of_runAlone {schedule : List Move}
    (ran : runAlone schedule task items state = (.ok results, later)) :
    Finished task items state (placed 0 (Solo.ofItems task schedule items state).results).reverse
      results later := by
  simp only [runAlone, Prod.mk.injEq] at ran
  obtain ⟨ended, rfl⟩ := ran
  cases halted : (Solo.ofItems task schedule items state).halt with
  | some halt =>
      rw [halted] at ended
      cases ended
  | none =>
      rw [halted] at ended
      cases ended
      have history := Solo.history (List.nil_append items).symm .start
        (show (Solo.ofItems task schedule items state).halt ≠ some .crashed by simp [halted])
      have length := (Solo.halt_eq_none_iff task schedule items state).mp halted
      rw [List.append_nil] at history
      refine ⟨history, ?_, length, ?_⟩
      · rw [List.map_reverse, map_fst_placed, length, ← List.range_eq_range']
        exact List.reverse_perm _
      · intro entry inside
        exact mem_placed.mp (List.mem_reverse.mp inside)

/-- The results of a run with their positions, the latest first, whether or not it came to its
end. -/
def worked (schedule : List Move) (jobs : Nat) (task : Task ι σ ρ) (items : List ι) (state : σ) :
    List (Nat × ρ) :=
  if min jobs items.length ≤ 1 then
    (placed 0 (Solo.ofItems task schedule items state).results).reverse
  else (Progress.ended schedule (min jobs items.length) task items state).results

/-- Whatever the schedule and the number of workers are, the results of a pool are those of a
history in which each item was worked on once. -/
theorem finished_of_run {schedule : List Move} {jobs : Nat}
    (ran : run schedule jobs task items state = (.ok results, later)) :
    Finished task items state (worked schedule jobs task items state) results later := by
  unfold run at ran
  unfold worked
  simp only at ran
  split at ran
  · next alone =>
      rw [if_pos alone]
      exact finished_of_runAlone ran
  · next several =>
      rw [if_neg several]
      simp only [runWorkers, Prod.mk.injEq] at ran
      obtain ⟨collected, rfl⟩ := ran
      have sound := Progress.sound_start task items (min jobs items.length) state
      exact finished_of_collect (sound.schedule schedule).drain collected

/-- Requests for cancellation pass through a guarded task to the state of the work. -/
theorem requested_guardedTask {ε : Type} {task : Task ι σ (Except ε ρ)} (moves : List Move)
    (guarded : Guarded ε σ) : (guardedTask task).requested moves guarded =
      { guarded with state := task.requested moves guarded.state } := by
  induction moves generalizing guarded with
  | nil => rfl
  | cons move moves hypothesis =>
      cases move with
      | step worker => exact hypothesis guarded
      | cancel => exact hypothesis ((guardedTask task).cancel guarded)

/-- Requests for cancellation reach guarded work as they reach the work itself. -/
theorem untilStep_guardedTask {ε : Type} {task : Task ι σ (Except ε ρ)} (moves : List Move)
    (guarded : Guarded ε σ) : (guardedTask task).untilStep moves guarded =
      ((task.untilStep moves guarded.state).1,
        { guarded with state := (task.untilStep moves guarded.state).2 }) := by
  induction moves generalizing guarded with
  | nil => rfl
  | cons move moves hypothesis =>
      cases move with
      | step worker =>
          cases worker with
          | zero => rfl
          | succ worker => exact hypothesis guarded
      | cancel => exact hypothesis ((guardedTask task).cancel guarded)

/-- What guarded work does. -/
theorem guardedWork_cases {ε : Type} (task : Task ι σ (Except ε ρ)) (item : ι)
    (guarded : Guarded ε σ) :
    guardedWork task item guarded = (some none, guarded.fail (.halted .cancelled)) ∨
      (∃ later, task.work item guarded.state = (none, later) ∧
        guardedWork task item guarded = (none, { guarded with state := later })) ∨
      (∃ result later, task.work item guarded.state = (some (.ok result), later) ∧
        guardedWork task item guarded = (some (some result), { guarded with state := later })) ∨
      ∃ error later, task.work item guarded.state = (some (.error error), later) ∧
        guardedWork task item guarded =
          (some none, Guarded.fail { guarded with state := later } (.failed error)) := by
  unfold guardedWork
  split
  · exact .inl rfl
  · split
    · next later worked => exact .inr (.inl ⟨later, worked, rfl⟩)
    · next result later worked => exact .inr (.inr (.inl ⟨result, later, worked, rfl⟩))
    · next error later worked => exact .inr (.inr (.inr ⟨error, later, worked, rfl⟩))

/-- Guarded work that gives a result is work that does. -/
theorem work_of_guardedWork {ε : Type} {task : Task ι σ (Except ε ρ)} {item : ι} {result : ρ}
    {before after : Guarded ε σ}
    (worked : guardedWork task item before = (some (some result), after)) :
    task.work item before.state = (some (.ok result), after.state) := by
  rcases guardedWork_cases task item before with
    same | ⟨_, _, same⟩ | ⟨_, _, own, same⟩ | ⟨_, _, _, same⟩ <;> rw [worked] at same <;> cases same
  exact own

/-- The results of a pool of work that can fail, which has not failed. -/
theorem history_of_guarded {ε : Type} {task : Task ι σ (Except ε ρ)}
    {initial guarded : Guarded ε σ} {done : List (Nat × ρ)}
    (history : History (guardedTask task) items initial
      (done.map fun entry => (entry.1, some entry.2)) guarded) :
    History task items initial.state (done.map fun entry => (entry.1, .ok entry.2))
      guarded.state := by
  generalize whole : done.map (fun entry => (entry.1, some entry.2)) = all at history
  induction history generalizing done with
  | start =>
      cases List.map_eq_nil_iff.mp whole
      exact .start
  | cancel _ hypothesis => exact .cancel (hypothesis whole)
  | @work _ state position item result later _ there worked hypothesis =>
      obtain ⟨entry, rest, rfl, same, others⟩ := List.map_eq_cons_iff.mp whole
      cases same
      exact .work (hypothesis others) there (work_of_guardedWork worked)

/-- A guarded pool that finished without an error has finished the work that it guards. -/
theorem finished_of_guarded {ε : Type} {task : Task ι σ (Except ε ρ)} {guarded : Guarded ε σ}
    {done : List (Nat × Option ρ)}
    (finished : Finished (guardedTask task) items ⟨state, none⟩ done (results.map some) guarded) :
    ∃ done, Finished task items state done (results.map .ok) guarded.state := by
  have given : ∀ entry ∈ done,
      entry ∈ Set.range fun given : Nat × ρ => (given.1, some given.2) := by
    intro entry inside
    obtain ⟨result, same⟩ := finished.exists_eq entry inside
    exact ⟨(entry.1, result), Prod.ext rfl same.symm⟩
  obtain ⟨inner, rfl⟩ : done ∈
      Set.range (List.map fun given : Nat × ρ => (given.1, some given.2)) := by
    rw [Set.range_list_map]
    exact given
  refine ⟨_, history_of_guarded finished.history, ?_, by simpa using finished.length, ?_⟩
  · simpa [Function.comp_def] using finished.once
  · intro entry inside
    obtain ⟨given, listed, rfl⟩ := List.mem_map.mp inside
    have there := finished.ordered _ (List.mem_map_of_mem listed)
    rw [List.getElem?_map] at there ⊢
    obtain ⟨result, found, same⟩ := Option.map_eq_some_iff.mp there
    cases same
    rw [found]
    rfl

/-- If no work of a pool failed, its results are those of a history in which each item was worked on
once. -/
theorem exists_finished_of_tryRun {ε : Type} {task : Task ι σ (Except ε ρ)} {schedule : List Move}
    {jobs : Nat} (ran : tryRun schedule jobs task items state = (.ok results, later)) :
    ∃ done, Finished task items state done (results.map .ok) later := by
  unfold tryRun at ran
  cases whole : run schedule jobs (guardedTask task) items ⟨state, none⟩ with
  | mk outcome guarded =>
      simp only [whole, Prod.mk.injEq] at ran
      obtain ⟨ended, rfl⟩ := ran
      split at ended
      · cases ended
      · cases ended
      · next options failure =>
          split at ended
          · next mapped =>
              cases ended
              have finished := finished_of_run whole
              cases eq_map_some_of_mapM_id mapped
              exact finished_of_guarded finished
          · cases ended

end SchemaBeans.Pool
