import SchemaBeans.Total

/-!
# The worker pool

Workers take positions of a list of items from a shared counter and work on the
items they took. Every worker goes through atomic steps, and a schedule says
whose step is next, so the pool stands for every interleaving of its workers.
Results come in the order of the items, whatever the schedule was.
-/

namespace SchemaBeans.Pool

/-- What a pool does with its items, on a state that all workers share. -/
structure Task (ι σ ρ : Type) where
  /-- Whether cancellation was requested. -/
  cancelled : σ → Bool
  /-- The state after a request for cancellation from outside the pool. -/
  cancel : σ → σ
  /-- The work on one item. It has no result if it crashes. -/
  work : ι → σ → Option ρ × σ

/-- What a worker does next. -/
inductive Phase where
  /-- Looks whether cancellation was requested. -/
  | ready
  /-- Takes the next position. -/
  | cleared
  /-- Works on the item at a position. -/
  | holding (position : Nat)
  | stopped
  | crashed
  deriving DecidableEq, Repr

/-- How many steps of its own a worker in a phase may still make before it needs another item. -/
def Phase.weight : Phase → Nat
  | holding _ => 3
  | ready => 2
  | cleared => 1
  | stopped => 0
  | crashed => 0

/-- Whether a worker has not ended. -/
def Phase.active (phase : Phase) : Bool := phase.weight ≠ 0

/-- A pool between two steps. -/
structure Progress (σ ρ : Type) where
  state : σ
  /-- The position that is taken next. -/
  next : Nat
  /-- The phases of the workers. -/
  phases : List Phase
  /-- The results by position, the latest first. -/
  results : List (Nat × ρ)

/-- One move of a schedule. -/
inductive Move where
  /-- A worker makes its next step; a worker that has ended or never was makes none. -/
  | step (worker : Nat)
  /-- Cancellation is requested from outside. -/
  | cancel
  deriving DecidableEq, Repr

/-- Why a pool ends without all results. -/
inductive Halt where
  | cancelled
  /-- The work crashed on the caller's own thread. -/
  | crashed
  | workerCrashed
  deriving DecidableEq, Repr

variable {ι σ ρ : Type}

/-- A pool before its first step. -/
def Progress.start (workers : Nat) (state : σ) : Progress σ ρ :=
  ⟨state, 0, List.replicate workers .ready, []⟩

/-- A bound on the steps that are still to come. -/
def Progress.remaining (progress : Progress σ ρ) (items : Nat) : Nat :=
  3 * (items - progress.next) + total Phase.weight progress.phases

/-- The pool with a worker in another phase. -/
def Progress.enter (progress : Progress σ ρ) (worker : Nat) (phase : Phase) : Progress σ ρ :=
  { progress with phases := progress.phases.set worker phase }

/-- The pool after a worker's work on the item at a position. -/
def Progress.finish (task : Task ι σ ρ) (progress : Progress σ ρ) (worker position : Nat)
    (item : ι) : Progress σ ρ :=
  match task.work item progress.state with
  | (some result, state) =>
      { progress.enter worker .ready with state, results := (position, result) :: progress.results }
  | (none, state) => { progress.enter worker .crashed with state }

/-- The pool after the next step of a worker. -/
def Progress.advance (task : Task ι σ ρ) (items : List ι) (progress : Progress σ ρ)
    (worker : Nat) : Progress σ ρ :=
  match progress.phases[worker]? with
  | some .ready =>
      progress.enter worker (if task.cancelled progress.state then .stopped else .cleared)
  | some .cleared =>
      { progress.enter worker
          (if progress.next < items.length then .holding progress.next else .stopped) with
        next := progress.next + 1 }
  | some (.holding position) =>
      match items[position]? with
      | some item => progress.finish task worker position item
      | none => progress.enter worker .stopped
  | _ => progress

/-- The pool after one move of a schedule. -/
def Progress.move (task : Task ι σ ρ) (items : List ι) (progress : Progress σ ρ) :
    Move → Progress σ ρ
  | .step worker => progress.advance task items worker
  | .cancel => { progress with state := task.cancel progress.state }

/-- A phase that is nearer to the end brings the pool nearer to its end. -/
theorem remaining_enter_lt (progress : Progress σ ρ) (items worker : Nat) (old new : Phase)
    (there : progress.phases[worker]? = some old) (less : new.weight < old.weight) :
    (progress.enter worker new).remaining items < progress.remaining items := by
  have sum := total_set Phase.weight progress.phases worker old new there
  simp only [Progress.remaining, Progress.enter]
  omega

/-- Finishing an item brings a worker to a phase that is nearer to the end. -/
theorem remaining_finish (task : Task ι σ ρ) (progress : Progress σ ρ) (worker position : Nat)
    (item : ι) (items : Nat) :
    ∃ phase : Phase, phase.weight < 3 ∧
      (progress.finish task worker position item).remaining items =
        (progress.enter worker phase).remaining items := by
  unfold Progress.finish
  split
  · exact ⟨.ready, by decide, rfl⟩
  · exact ⟨.crashed, by decide, rfl⟩

/-- A step of a worker that has not ended brings the pool nearer to its end. -/
theorem remaining_advance_lt (task : Task ι σ ρ) (items : List ι) (progress : Progress σ ρ)
    (worker : Nat) (phase : Phase) (there : progress.phases[worker]? = some phase)
    (active : phase.active = true) :
    (progress.advance task items worker).remaining items.length <
      progress.remaining items.length := by
  unfold Progress.advance
  rw [there]
  cases phase with
  | ready =>
      refine remaining_enter_lt progress items.length worker .ready _ there ?_
      split <;> decide
  | cleared =>
      have sum := fun new => total_set Phase.weight progress.phases worker .cleared new there
      by_cases more : progress.next < items.length
      · have sum := sum (.holding progress.next)
        simp only [Phase.weight] at sum
        simp only [more, if_true, Progress.remaining, Progress.enter]
        omega
      · have sum := sum .stopped
        simp only [Phase.weight] at sum
        simp only [more, if_false, Progress.remaining, Progress.enter]
        omega
  | holding position =>
      cases found : items[position]? with
      | none =>
          simp only [found]
          exact remaining_enter_lt progress _ worker _ _ there (by simp [Phase.weight])
      | some item =>
          simp only [found]
          obtain ⟨phase, light, same⟩ :=
            remaining_finish task progress worker position item items.length
          rw [same]
          exact remaining_enter_lt progress _ worker _ _ there (by simpa [Phase.weight] using light)
  | stopped => simp [Phase.active, Phase.weight] at active
  | crashed => simp [Phase.active, Phase.weight] at active

/-- The pool after all workers have ended, each time with a step of the first that has not. -/
def Progress.drain (task : Task ι σ ρ) (items : List ι) (progress : Progress σ ρ) :
    Progress σ ρ :=
  match _found : progress.phases.findIdx? Phase.active with
  | none => progress
  | some worker => (progress.advance task items worker).drain task items
termination_by progress.remaining items.length
decreasing_by
  obtain ⟨inside, active, _⟩ := List.findIdx?_eq_some_iff_getElem.mp _found
  exact remaining_advance_lt task items progress worker _ (List.getElem?_eq_getElem inside) active

/-- The results of a pool whose workers have ended: one for each item, or none at all. -/
def Progress.collect (progress : Progress σ ρ) (items : Nat) : Except Halt (List ρ) :=
  if progress.phases.contains .crashed then .error .workerCrashed
  else
    match (List.range items).mapM fun position => progress.results.lookup position with
    | some results => .ok results
    | none => .error .cancelled

/-- A pool of several workers that has gone through a schedule, and on until all of them ended. -/
def Progress.ended (schedule : List Move) (workers : Nat) (task : Task ι σ ρ) (items : List ι)
    (state : σ) : Progress σ ρ :=
  (schedule.foldl (Progress.move task items) (.start workers state)).drain task items

/-- The run of several workers under a schedule, and to its end. -/
def runWorkers (schedule : List Move) (workers : Nat) (task : Task ι σ ρ) (items : List ι)
    (state : σ) : Except Halt (List ρ) × σ :=
  let ended := Progress.ended schedule workers task items state
  (ended.collect items.length, ended.state)

/-- The state after the requests for cancellation in a schedule. -/
def Task.requested (task : Task ι σ ρ) : List Move → σ → σ
  | [], state => state
  | .step _ :: moves, state => task.requested moves state
  | .cancel :: moves, state => task.requested moves (task.cancel state)

/-- The caller's own thread at its next step: what is left of the schedule, and the state after the
requests for cancellation that come before the step. -/
def Task.untilStep (task : Task ι σ ρ) : List Move → σ → List Move × σ
  | [], state => ([], state)
  | .step 0 :: moves, state => (moves, state)
  | .step (_ + 1) :: moves, state => task.untilStep moves state
  | .cancel :: moves, state => task.untilStep moves (task.cancel state)

/-- What one worker has done when it ends. -/
structure Solo (σ ρ : Type) where
  state : σ
  /-- The results of the first items, in their order. -/
  results : List ρ
  /-- Why the worker did not come to the end of the items. -/
  halt : Option Halt

/-- One worker goes from item to item. It looks whether cancellation was requested, and then works
on the item. -/
def Solo.ofItems (task : Task ι σ ρ) (schedule : List Move) : List ι → σ → Solo σ ρ
  | [], state => ⟨task.requested schedule state, [], none⟩
  | item :: items, state =>
      let (schedule, state) := task.untilStep schedule state
      if task.cancelled state then ⟨state, [], some .cancelled⟩
      else
        let (schedule, state) := task.untilStep schedule state
        match task.work item state with
        | (none, state) => ⟨state, [], some .crashed⟩
        | (some result, state) =>
            let rest := Solo.ofItems task schedule items state
            { rest with results := result :: rest.results }

/-- The run of one worker, on the caller's own thread. -/
def runAlone (schedule : List Move) (task : Task ι σ ρ) (items : List ι) (state : σ) :
    Except Halt (List ρ) × σ :=
  let solo := Solo.ofItems task schedule items state
  (match solo.halt with
    | some halt => .error halt
    | none => .ok solo.results,
    solo.state)

/-- The results of work on every item, in the order of the items, by at most the given number of
workers. -/
def run (schedule : List Move) (jobs : Nat) (task : Task ι σ ρ) (items : List ι) (state : σ) :
    Except Halt (List ρ) × σ :=
  let workers := min jobs items.length
  if workers ≤ 1 then runAlone schedule task items state
  else runWorkers schedule workers task items state

/-- Why a pool of work that can fail ends without all results. -/
inductive Failure (ε : Type) where
  /-- The first error of the work. -/
  | failed (error : ε)
  | halted (halt : Halt)
  deriving DecidableEq, Repr

/-- The state of a pool whose work can fail. -/
structure Guarded (ε σ : Type) where
  state : σ
  /-- The first failure; workers take no items after it. -/
  failure : Option (Failure ε)

variable {ε : Type}

/-- The state with a failure, unless there was one before. -/
def Guarded.fail (guarded : Guarded ε σ) (failure : Failure ε) : Guarded ε σ :=
  { guarded with failure := guarded.failure.or (some failure) }

/-- Work that can fail as work that leaves its failure in the state. Cancellation is looked for
before the work on each item, and is a failure then. -/
def guardedWork (task : Task ι σ (Except ε ρ)) (item : ι) (guarded : Guarded ε σ) :
    Option (Option ρ) × Guarded ε σ :=
  if task.cancelled guarded.state then (some none, guarded.fail (.halted .cancelled))
  else
    match task.work item guarded.state with
    | (none, state) => (none, { guarded with state })
    | (some (.ok result), state) => (some (some result), { guarded with state })
    | (some (.error error), state) =>
        (some none, Guarded.fail { guarded with state } (.failed error))

/-- The task of a pool whose workers stop at the first failure. -/
def guardedTask (task : Task ι σ (Except ε ρ)) : Task ι (Guarded ε σ) (Option ρ) where
  cancelled guarded := guarded.failure.isSome
  cancel guarded := { guarded with state := task.cancel guarded.state }
  work := guardedWork task

/-- The results of work that can fail on every item, in the order of the items, or the first
failure. Work that was begun before a failure is finished. -/
def tryRun (schedule : List Move) (jobs : Nat) (task : Task ι σ (Except ε ρ)) (items : List ι)
    (state : σ) : Except (Failure ε) (List ρ) × σ :=
  let (results, guarded) := run schedule jobs (guardedTask task) items ⟨state, none⟩
  let outcome :=
    match guarded.failure, results with
    | some failure, _ => .error failure
    | none, .error halt => .error (.halted halt)
    | none, .ok results =>
        match results.mapM id with
        | some results => .ok results
        | none => .error (.halted .cancelled)
  (outcome, guarded.state)

end SchemaBeans.Pool
