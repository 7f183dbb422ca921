import SchemaBeans.Proofs.Workers

/-!
# One worker

One worker calls the work of its pool on the items in their order. `Pool.Ends` says how
far it comes: to the end of the items, to the first at which the work fails, or only up
to the first at which it finds a request for cancellation. Work that never fails has the
same outcome in a pool that looks out for failures as in one that does not.
-/

namespace SchemaBeans.Pool

variable {ι σ ρ ε : Type}

/-- The same work, which also writes down the items that it is called on. -/
def Task.recorded (task : Task ι σ ρ) : Task ι (σ × List ι) ρ where
  cancelled state := task.cancelled state.1
  cancel state := (task.cancel state.1, state.2)
  work item state :=
    ((task.work item state.1).1, (task.work item state.1).2, state.2 ++ [item])

/-- Work that never fails, as work that could. -/
def Task.unfailing (task : Task ι σ ρ) (ε : Type) : Task ι σ (Except ε ρ) where
  cancelled := task.cancelled
  cancel := task.cancel
  work item state := ((task.work item state).1.map .ok, (task.work item state).2)

/-- The worker on its own at an item. It looks whether it is to go on, and turns to the item with
its next step. A moment is what is left of the schedule, with the state. -/
def Task.turn (task : Task ι σ ρ) (moment : List Move × σ) : List Move × σ :=
  let looked := task.untilStep moment.1 moment.2
  task.untilStep looked.1 looked.2

/-- The state in which the worker leaves after a failure. It looks once more whether it is to go on
if there are items left. -/
def Task.leave (task : Task ι σ ρ) (moment : List Move × σ) : List ι → σ
  | [] => task.requested moment.1 moment.2
  | _ :: _ => (task.untilStep moment.1 moment.2).2

/-- The worker calls the work on some items, one after the other. At none of them it finds a
request for cancellation, and each has a result. -/
inductive Passes (task : Task ι σ (Except ε ρ)) :
    List ι → List Move × σ → List ρ → List Move × σ → Prop where
  | nil {moment} : Passes task [] moment [] moment
  | cons {item items moment moves before result later results last}
      (turned : task.turn moment = (moves, before)) (clear : task.cancelled before = false)
      (worked : task.work item before = (some (.ok result), later))
      (passes : Passes task items (moves, later) results last) :
      Passes task (item :: items) moment (result :: results) last

/-- How far the worker comes: the items that the work is called on, the outcome, and the state in
the end. -/
inductive Ends (task : Task ι σ (Except ε ρ)) (items : List ι) (moment : List Move × σ) :
    List ι → Except (Failure ε) (List ρ) → σ → Prop where
  | whole {results last} (passes : Passes task items moment results last) :
      Ends task items moment items (.ok results) (task.requested last.1 last.2)
  | failed {front item rest results last moves before error later}
      (parts : items = front ++ item :: rest) (passes : Passes task front moment results last)
      (turned : task.turn last = (moves, before)) (clear : task.cancelled before = false)
      (worked : task.work item before = (some (.error error), later)) :
      Ends task items moment (front ++ [item]) (.error (.failed error))
        (task.leave (moves, later) rest)
  | stopped {front item rest results last moves before}
      (parts : items = front ++ item :: rest) (passes : Passes task front moment results last)
      (turned : task.turn last = (moves, before)) (set : task.cancelled before = true) :
      Ends task items moment front (.error (.halted .cancelled)) (task.leave (moves, before) rest)
  | crashed {front item rest results last moves before later}
      (parts : items = front ++ item :: rest) (passes : Passes task front moment results last)
      (turned : task.turn last = (moves, before)) (clear : task.cancelled before = false)
      (worked : task.work item before = (none, later)) :
      Ends task items moment (front ++ [item]) (.error (.halted .crashed)) later

variable {task : Task ι σ (Except ε ρ)} {items calls : List ι} {moment last : List Move × σ}
  {state later : σ} {schedule : List Move} {jobs : Nat} {results : List ρ}
  {outcome : Except (Failure ε) (List ρ)}

section Guarded

/-- At an item the worker calls the guarded work, if nothing has failed before. -/
theorem Solo.ofItems_guarded (task : Task ι σ (Except ε ρ)) (moment : List Move × σ) (item : ι)
    (rest : List ι) :
    Solo.ofItems (guardedTask task) moment.1 (item :: rest) ⟨moment.2, none⟩ =
      match guardedWork task item ⟨(task.turn moment).2, none⟩ with
      | (none, guarded) => ⟨guarded, [], some .crashed⟩
      | (some result, guarded) =>
          { Solo.ofItems (guardedTask task) (task.turn moment).1 rest guarded with
            results := result ::
              (Solo.ofItems (guardedTask task) (task.turn moment).1 rest guarded).results } := by
  have clear : (guardedTask task).cancelled ⟨(task.untilStep moment.1 moment.2).2, none⟩ = false :=
    rfl
  have called : (guardedTask task).work = guardedWork task := rfl
  rw [Solo.ofItems]
  simp only [untilStep_guardedTask, clear, called, Task.turn, Bool.false_eq_true, if_false]
  rcases guardedWork task item _ with ⟨_ | _, _⟩ <;> rfl

/-- After a failure the worker calls no work. -/
theorem Solo.state_ofItems_of_failure (task : Task ι σ (Except ε ρ)) (moment : List Move × σ)
    (failure : Failure ε) (rest : List ι) :
    (Solo.ofItems (guardedTask task) moment.1 rest ⟨moment.2, some failure⟩).state =
      ⟨task.leave moment rest, some failure⟩ := by
  cases rest with
  | nil => rw [Solo.ofItems, requested_guardedTask]; rfl
  | cons item rest =>
      rw [Solo.ofItems]
      simp only [untilStep_guardedTask]
      rfl

/-- What the worker has passed stands before what it does next. -/
theorem Passes.ofItems_append (passes : Passes task calls moment results last) (rest : List ι) :
    Solo.ofItems (guardedTask task) moment.1 (calls ++ rest) ⟨moment.2, none⟩ =
      { Solo.ofItems (guardedTask task) last.1 rest ⟨last.2, none⟩ with
        results := results.map some ++
          (Solo.ofItems (guardedTask task) last.1 rest ⟨last.2, none⟩).results } := by
  induction passes with
  | nil => rfl
  | cons turned clear worked passes hypothesis =>
      rw [List.cons_append, Solo.ofItems_guarded, turned]
      simp only [guardedWork, clear, worked, Bool.false_eq_true, if_false, hypothesis]
      rfl

/-- The run of one worker comes from where it ends. -/
theorem tryRun_of_ofItems {solo : Solo (Guarded ε σ) (Option ρ)}
    (alone : jobs = 1 ∨ items.length ≤ 1)
    (went : Solo.ofItems (guardedTask task) schedule items ⟨state, none⟩ = solo) :
    tryRun schedule jobs task items state =
      (match solo.state.failure, solo.halt with
        | some failure, _ => .error failure
        | none, some halt => .error (.halted halt)
        | none, none =>
            match solo.results.mapM id with
            | some results => .ok results
            | none => .error (.halted .cancelled),
        solo.state.state) := by
  have single : min jobs items.length ≤ 1 := by omega
  subst went
  simp only [tryRun, run, if_pos single, runAlone]
  cases (Solo.ofItems (guardedTask task) schedule items ⟨state, none⟩).state.failure <;>
    cases (Solo.ofItems (guardedTask task) schedule items ⟨state, none⟩).halt <;> rfl

/-- A pool of one worker has the outcome of its worker. -/
theorem Ends.tryRun (ends : Ends task items (schedule, state) calls outcome later)
    (alone : jobs = 1 ∨ items.length ≤ 1) :
    tryRun schedule jobs task items state = (outcome, later) := by
  cases ends with
  | @whole results last passes =>
      have went := passes.ofItems_append []
      rw [List.append_nil, Solo.ofItems, requested_guardedTask] at went
      have gathered : (results.map some).mapM id = some results :=
        @mapM_map_eq_pure _ _ Option _ _ some id (fun _ => rfl) results
      rw [tryRun_of_ofItems alone went]
      simp only [List.append_nil, gathered]
  | @failed front item rest _ _ moves _ error after parts passes turned clear worked =>
      have went := passes.ofItems_append (item :: rest)
      have left := Solo.state_ofItems_of_failure task (moves, after) (.failed error) rest
      rw [← parts, Solo.ofItems_guarded, turned] at went
      simp only [guardedWork, clear, worked, Guarded.fail, Bool.false_eq_true, if_false,
        Option.none_or] at went
      rw [tryRun_of_ofItems alone went]
      simp only [left]
  | @stopped front item rest _ _ moves before parts passes turned set =>
      have went := passes.ofItems_append (item :: rest)
      have left := Solo.state_ofItems_of_failure task (moves, before) (.halted .cancelled) rest
      rw [← parts, Solo.ofItems_guarded, turned] at went
      simp only [guardedWork, set, Guarded.fail, if_true, Option.none_or] at went
      rw [tryRun_of_ofItems alone went]
      simp only [left]
  | @crashed front item rest _ _ _ _ _ parts passes turned clear worked =>
      have went := passes.ofItems_append (item :: rest)
      rw [← parts, Solo.ofItems_guarded, turned] at went
      simp only [guardedWork, clear, worked, Bool.false_eq_true, if_false] at went
      rw [tryRun_of_ofItems alone went]

end Guarded

/-- The worker comes to some end. -/
theorem exists_ends (task : Task ι σ (Except ε ρ)) (items : List ι) (moment : List Move × σ) :
    ∃ calls outcome later, Ends task items moment calls outcome later := by
  induction items generalizing moment with
  | nil => exact ⟨[], _, _, .whole .nil⟩
  | cons item rest hypothesis =>
      cases turned : task.turn moment with
      | mk moves before =>
          cases set : task.cancelled before with
          | true => exact ⟨[], _, _, .stopped rfl .nil turned set⟩
          | false =>
              cases worked : task.work item before with
              | mk result after =>
                  match result with
                  | none => exact ⟨_, _, _, .crashed rfl .nil turned set worked⟩
                  | some (.error error) => exact ⟨_, _, _, .failed rfl .nil turned set worked⟩
                  | some (.ok result) =>
                      -- The item is passed, and the worker ends where it does on the rest.
                      obtain ⟨calls, outcome, later, ends⟩ := hypothesis (moves, after)
                      have first : ∀ {front results last},
                          Passes task front (moves, after) results last →
                          Passes task (item :: front) moment (result :: results) last :=
                        fun passes => .cons turned set worked passes
                      cases ends with
                      | whole passes => exact ⟨_, _, _, .whole (first passes)⟩
                      | failed parts passes turned clear worked =>
                          exact ⟨_, _, _, .failed (congrArg (item :: ·) parts) (first passes)
                            turned clear worked⟩
                      | stopped parts passes turned set =>
                          exact ⟨_, _, _, .stopped (congrArg (item :: ·) parts) (first passes)
                            turned set⟩
                      | crashed parts passes turned clear worked =>
                          exact ⟨_, _, _, .crashed (congrArg (item :: ·) parts) (first passes)
                            turned clear worked⟩

section Recorded

/-- Requests for cancellation reach recorded work as they reach the work itself. -/
theorem requested_recorded (task : Task ι σ ρ) (moves : List Move) (state : σ) (record : List ι) :
    task.recorded.requested moves (state, record) = (task.requested moves state, record) := by
  fun_induction Task.requested task moves state with
  | case1 => rfl
  | case2 worker moves state hypothesis => exact hypothesis
  | case3 moves state hypothesis => exact hypothesis

/-- Waiting for the next step leaves the record as it is. -/
theorem untilStep_recorded (task : Task ι σ ρ) (moves : List Move) (state : σ) (record : List ι) :
    task.recorded.untilStep moves (state, record) =
      ((task.untilStep moves state).1, (task.untilStep moves state).2, record) := by
  fun_induction Task.untilStep task moves state with
  | case1 | case2 => rfl
  | case3 worker moves state hypothesis => exact hypothesis
  | case4 moves state hypothesis => exact hypothesis

/-- The turn of a worker leaves the record as it is. -/
theorem turn_recorded (task : Task ι σ ρ) (moment : List Move × σ) (record : List ι) :
    task.recorded.turn (moment.1, moment.2, record) =
      ((task.turn moment).1, (task.turn moment).2, record) := by
  simp only [Task.turn, untilStep_recorded]

/-- A worker that leaves takes the record with it. -/
theorem leave_recorded (task : Task ι σ ρ) (moment : List Move × σ) (record rest : List ι) :
    task.recorded.leave (moment.1, moment.2, record) rest = (task.leave moment rest, record) := by
  cases rest with
  | nil => exact requested_recorded task moment.1 moment.2 record
  | cons item rest => exact congrArg Prod.snd (untilStep_recorded task moment.1 moment.2 record)

/-- Recorded work passes the same items as the work itself, and records each call in order. -/
theorem Passes.recorded (passes : Passes task calls moment results last) (record : List ι) :
    Passes task.recorded calls (moment.1, moment.2, record) results
      (last.1, last.2, record ++ calls) := by
  induction passes generalizing record with
  | nil =>
      rw [List.append_nil]
      exact .nil
  | @cons item items moment moves before result later results last turned clear worked passes
      hypothesis =>
      have further := hypothesis (record ++ [item])
      rw [List.append_assoc] at further
      have here := turn_recorded task moment record
      rw [turned] at here
      refine .cons here clear ?_ further
      simp only [Task.recorded, worked]

/-- The record is the list of the items that the work is called on. -/
theorem Ends.recorded (ends : Ends task items moment calls outcome later) (record : List ι) :
    Ends task.recorded items (moment.1, moment.2, record) calls outcome
      (later, record ++ calls) := by
  cases ends with
  | @whole results last passes =>
      rw [← requested_recorded]
      exact .whole (passes.recorded record)
  | @failed front item rest _ last moves _ error after parts passes turned clear worked =>
      have here := turn_recorded task last (record ++ front)
      rw [turned] at here
      rw [← leave_recorded task (moves, after), ← List.append_assoc]
      refine .failed parts (passes.recorded record) here clear ?_
      simp only [Task.recorded, worked]
  | @stopped _ item rest _ last moves before parts passes turned set =>
      have here := turn_recorded task last (record ++ calls)
      rw [turned] at here
      rw [← leave_recorded task (moves, before)]
      exact .stopped parts (passes.recorded record) here set
  | @crashed front item rest _ last _ _ _ parts passes turned clear worked =>
      have here := turn_recorded task last (record ++ front)
      rw [turned] at here
      rw [← List.append_assoc]
      refine .crashed parts (passes.recorded record) here clear ?_
      simp only [Task.recorded, worked]

end Recorded

section Unfailing

variable {task : Task ι σ ρ}

/-- Without requests for cancellation, waiting changes nothing. -/
theorem untilStep_of_calm (calm : .cancel ∉ schedule) (task : Task ι σ ρ) (state : σ) :
    (task.untilStep schedule state).2 = state ∧
      .cancel ∉ (task.untilStep schedule state).1 := by
  fun_induction Task.untilStep task schedule state with
  | case1 => exact ⟨rfl, calm⟩
  | case2 moves state => exact ⟨rfl, fun inside => calm (List.mem_cons_of_mem _ inside)⟩
  | case3 worker moves state hypothesis =>
      exact hypothesis fun inside => calm (List.mem_cons_of_mem _ inside)
  | case4 => exact absurd List.mem_cons_self calm

/-- Without requests for cancellation, nothing is requested. -/
theorem requested_of_calm (calm : .cancel ∉ schedule) (task : Task ι σ ρ) (state : σ) :
    task.requested schedule state = state := by
  fun_induction Task.requested task schedule state with
  | case1 => rfl
  | case2 worker moves state hypothesis =>
      exact hypothesis fun inside => calm (List.mem_cons_of_mem _ inside)
  | case3 => exact absurd List.mem_cons_self calm

/-- As long as nobody else requests cancellation, the schedule does not matter to one worker. -/
theorem Solo.ofItems_of_calm (calm : .cancel ∉ schedule) (task : Task ι σ ρ) (items : List ι)
    (state : σ) : Solo.ofItems task schedule items state = Solo.ofItems task [] items state := by
  induction items generalizing schedule state with
  | nil => simp only [Solo.ofItems, requested_of_calm calm, Task.requested]
  | cons item rest hypothesis =>
      obtain ⟨looked, calm⟩ := untilStep_of_calm calm task state
      obtain ⟨turned, calm⟩ := untilStep_of_calm calm task state
      simp only [Solo.ofItems, looked, turned, hypothesis calm, Task.untilStep]

/-- Work that never fails goes the same way, guarded or not. It comes to the same end, or the
cancellation that ends it is its failure. -/
theorem Solo.ofItems_unfailing (task : Task ι σ ρ) (items : List ι) (state : σ) :
    Solo.ofItems (guardedTask (task.unfailing ε)) [] items ⟨state, none⟩ =
        ⟨⟨(Solo.ofItems task [] items state).state, none⟩,
          (Solo.ofItems task [] items state).results.map some,
          (Solo.ofItems task [] items state).halt⟩ ∨
      (Solo.ofItems task [] items state).halt = some .cancelled ∧
        (Solo.ofItems (guardedTask (task.unfailing ε)) [] items ⟨state, none⟩).state =
          ⟨(Solo.ofItems task [] items state).state, some (.halted .cancelled)⟩ := by
  induction items generalizing state with
  | nil => exact .inl rfl
  | cons item rest hypothesis =>
      have guarded := Solo.ofItems_guarded (task.unfailing ε) ([], state) item rest
      have turned : (task.unfailing ε).turn ([], state) = ([], state) := rfl
      have seen : (task.unfailing ε).cancelled state = task.cancelled state := rfl
      have called : (task.unfailing ε).work item state =
        ((task.work item state).1.map .ok, (task.work item state).2) := rfl
      rw [turned] at guarded
      simp only [guardedWork, seen, called] at guarded
      rw [guarded, Solo.ofItems]
      simp only [Task.untilStep]
      cases task.cancelled state with
      | true =>
          have left := Solo.state_ofItems_of_failure (task.unfailing ε) ([], state)
            (.halted .cancelled) rest
          have stays : (task.unfailing ε).leave ([], state) rest = state := by cases rest <;> rfl
          rw [stays] at left
          exact .inr ⟨rfl, left⟩
      | false =>
          rcases task.work item state with ⟨_ | result, later⟩
          · exact .inl rfl
          · rcases hypothesis later with same | ⟨halted, failed⟩
            · exact .inl (by simp [same])
            · exact .inr ⟨halted, failed⟩

/-- Work that never fails has the same outcome in a pool that looks out for failures as in one that
does not. -/
theorem tryRun_unfailing (calm : .cancel ∉ schedule) (alone : jobs = 1 ∨ items.length ≤ 1)
    (task : Task ι σ ρ) (state : σ) :
    tryRun schedule jobs (task.unfailing ε) items state =
      ((run schedule jobs task items state).1.mapError .halted,
        (run schedule jobs task items state).2) := by
  have single : min jobs items.length ≤ 1 := by omega
  have ran : run schedule jobs task items state = runAlone [] task items state := by
    simp only [run, if_pos single, runAlone, Solo.ofItems_of_calm calm]
  rw [tryRun_of_ofItems alone (Solo.ofItems_of_calm calm _ items _), ran, runAlone]
  rcases @Solo.ofItems_unfailing ι σ ρ ε task items state with same | ⟨halted, failed⟩
  · rw [same]
    have gathered := @mapM_map_eq_pure _ _ Option _ _ some id (fun _ => rfl)
      (Solo.ofItems task [] items state).results
    cases halt : (Solo.ofItems task [] items state).halt with
    | none => simp [gathered, Except.mapError]
    | some reason => rfl
  · rw [failed, halted]
    rfl

end Unfailing

/-- A pool of one worker, or of one item at most, ends where `Ends` says, and its work is called on
the items that `Ends` names, in their order. Cancellation may be requested at any moment, by the
work or by somebody else. If nobody else requests it, work that never fails has the same outcome,
calls and final state in a pool that looks out for failures as in one that does not. -/
theorem tryRun_ends_iff (task : Task ι σ (Except ε ρ)) (items : List ι) (schedule : List Move)
    (jobs : Nat) (state : σ) (alone : jobs = 1 ∨ items.length ≤ 1) :
    (∀ calls outcome later,
      tryRun schedule jobs task.recorded items (state, []) = (outcome, later, calls) ↔
        Ends task items (schedule, state) calls outcome later) ∧
    (∀ calls outcome later, Ends task items (schedule, state) calls outcome later →
      tryRun schedule jobs task items state = (outcome, later)) ∧
    ∀ plain : Task ι σ ρ, .cancel ∉ schedule →
      tryRun schedule jobs (plain.unfailing ε).recorded items (state, []) =
        ((run schedule jobs plain.recorded items (state, [])).1.mapError .halted,
          (run schedule jobs plain.recorded items (state, [])).2) := by
  have recorded : ∀ {calls outcome later}, Ends task items (schedule, state) calls outcome later →
      tryRun schedule jobs task.recorded items (state, []) = (outcome, later, calls) :=
    fun ends => (ends.recorded []).tryRun alone
  refine ⟨fun calls outcome later => ⟨fun ran => ?_, recorded⟩,
    fun _ _ _ ends => ends.tryRun alone, fun plain calm => ?_⟩
  · obtain ⟨_, _, _, ends⟩ := exists_ends task items (schedule, state)
    cases (recorded ends).symm.trans ran
    exact ends
  · exact tryRun_unfailing calm alone plain.recorded (state, [])

/-- Work that doubles numbers. It fails at zero, and requests cancellation at nine. -/
def doublingToNine : Task Nat Bool (Except String Nat) where
  cancelled := id
  cancel _ := true
  work item cancelled :=
    (some (if item = 0 then .error "zero" else .ok (2 * item)), cancelled || item = 9)

/-- Doubling ends at a request after the item that made it, at a failure, and at the last item even
if that made a request. -/
theorem doublingToNine_ends : (1 = 1 ∨ [2, 9, 4].length ≤ 1) ∧
    Ends doublingToNine [2, 9, 4] ([], false) [2, 9] (.error (.halted .cancelled)) true ∧
    Ends doublingToNine [2, 0, 4] ([], false) [2, 0] (.error (.failed "zero")) false ∧
    Ends doublingToNine [2, 9] ([], false) [2, 9] (.ok [4, 18]) true := by
  have ends : ∀ items, (∀ calls outcome later,
      tryRun [] 1 doublingToNine.recorded items (false, []) = (outcome, later, calls) ↔
        Ends doublingToNine items ([], false) calls outcome later) :=
    fun items => (tryRun_ends_iff doublingToNine items [] 1 false (.inl rfl)).1
  exact ⟨.inl rfl, (ends _ _ _ _).mp rfl, (ends _ _ _ _).mp rfl, (ends _ _ _ _).mp rfl⟩

end SchemaBeans.Pool
