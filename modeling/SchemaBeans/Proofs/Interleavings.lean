import SchemaBeans.Proofs.Workers

/-!
# Interleavings of workers

In whatever order the workers of a pool make their steps, and whenever cancellation
is requested, they take the positions of the items in order, each once, and give a
result for each position that was taken. A pool therefore ends with a result for
every item, unless a worker saw a request for cancellation.
-/

namespace SchemaBeans.Pool

variable {ι σ ρ : Type} {task : Task ι σ ρ} {items : List ι} {schedule : List Move}
  {holds flagged : σ → Prop} {state : σ}

/-- A run in which no work crashes. Something holds of the state all the time, and something else
is so once a worker can see a request for cancellation. -/
structure Regime (task : Task ι σ ρ) (items : List ι) (schedule : List Move)
    (holds flagged : σ → Prop) : Prop where
  work : ∀ item ∈ items, ∀ state, holds state → ∃ result later,
    task.work item state = (some result, later) ∧ holds later ∧ (flagged state → flagged later)
  cancel : .cancel ∈ schedule → ∀ state, holds state →
    holds (task.cancel state) ∧ (flagged state → flagged (task.cancel state))
  seen : ∀ state, holds state → task.cancelled state = true → flagged state

/-- A regime for some items and a schedule is one for fewer items and for a part of the schedule. -/
theorem Regime.mono (regime : Regime task items schedule holds flagged) {fewer : List ι}
    {moves : List Move} (inside : fewer ⊆ items) (known : .cancel ∈ moves → .cancel ∈ schedule) :
    Regime task fewer moves holds flagged :=
  ⟨fun item listed => regime.work item (inside listed), fun listed => regime.cancel (known listed),
    regime.seen⟩

section Solo

/-- What holds goes on to hold after requests for cancellation, and what is flagged stays so. -/
theorem Regime.requested (regime : Regime task items schedule holds flagged)
    (begun : holds state) :
    holds (task.requested schedule state) ∧
      (flagged state → flagged (task.requested schedule state)) := by
  fun_induction Task.requested task schedule state with
  | case1 => exact ⟨begun, id⟩
  | case2 worker moves state hypothesis =>
      exact hypothesis (regime.mono (fun _ => id) (List.mem_cons_of_mem _)) begun
  | case3 moves state hypothesis =>
      obtain ⟨kept, stays⟩ := regime.cancel List.mem_cons_self state begun
      obtain ⟨later, further⟩ :=
        hypothesis (regime.mono (fun _ => id) (List.mem_cons_of_mem _)) kept
      exact ⟨later, fun flag => further (stays flag)⟩

/-- Waiting for the next step keeps what holds of the state, and the regime for the rest of the
schedule. -/
theorem Regime.untilStep (regime : Regime task items schedule holds flagged)
    (begun : holds state) :
    holds (task.untilStep schedule state).2 ∧
      Regime task items (task.untilStep schedule state).1 holds flagged := by
  fun_induction Task.untilStep task schedule state with
  | case1 => exact ⟨begun, regime⟩
  | case2 => exact ⟨begun, regime.mono (fun _ => id) (List.mem_cons_of_mem _)⟩
  | case3 worker moves state hypothesis =>
      exact hypothesis (regime.mono (fun _ => id) (List.mem_cons_of_mem _)) begun
  | case4 moves state hypothesis =>
      obtain ⟨kept, _⟩ := regime.cancel List.mem_cons_self state begun
      exact hypothesis (regime.mono (fun _ => id) (List.mem_cons_of_mem _)) kept

/-- A worker alone comes to the end of the items, unless it saw a request for cancellation. -/
theorem Regime.solo (regime : Regime task items schedule holds flagged) (state : σ)
    (begun : holds state) :
    holds (Solo.ofItems task schedule items state).state ∧
      ((Solo.ofItems task schedule items state).halt = none ∨
        (Solo.ofItems task schedule items state).halt = some .cancelled ∧
          flagged (Solo.ofItems task schedule items state).state) := by
  induction items generalizing schedule state with
  | nil => exact ⟨(regime.requested begun).1, .inl rfl⟩
  | cons item rest hypothesis =>
      obtain ⟨looked, regime⟩ := regime.untilStep begun
      rcases Solo.ofItems_cons task schedule item rest state with
        ⟨stopped, same⟩ | ⟨_, moves, before, ready, worked⟩
      · rw [same]
        exact ⟨looked, .inr ⟨rfl, regime.seen _ looked stopped⟩⟩
      · obtain ⟨cleared, regime⟩ := regime.untilStep looked
        rw [← ready] at cleared regime
        obtain ⟨given, after, working, kept, _⟩ :=
          regime.work item List.mem_cons_self before cleared
        rcases worked with ⟨later, crashed, _⟩ | ⟨result, later, worked, same⟩
        · rw [working] at crashed
          cases crashed
        · rw [working] at worked
          cases worked
          rw [same]
          exact hypothesis (regime.mono (List.subset_cons_self item rest) id) _ kept

end Solo

namespace Progress

/-- The worker and the position of a move that takes one: the worker is cleared, and there are items
left. -/
def taken? (items : List ι) (progress : Progress σ ρ) : Move → Option (Nat × Nat)
  | .step worker =>
      if progress.phases[worker]? = some .cleared ∧ progress.next < items.length then
        some (worker, progress.next)
      else none
  | .cancel => none

/-- Who takes which position under a schedule, in the order in which it happens. -/
def takes (task : Task ι σ ρ) (items : List ι) (progress : Progress σ ρ) :
    List Move → List (Nat × Nat)
  | [] => []
  | move :: moves =>
      (progress.taken? items move).toList ++ (progress.move task items move).takes task items moves

/-- How many positions were taken. -/
def reached (items : List ι) (progress : Progress σ ρ) : Nat := min progress.next items.length

variable {progress : Progress σ ρ} {move : Move}

/-- A move takes the position that comes next, or none. -/
theorem taken_move (task : Task ι σ ρ) (items : List ι) (progress : Progress σ ρ) (move : Move) :
    progress.reached items ≤ (progress.move task items move).reached items ∧
      (progress.taken? items move).toList.map Prod.snd =
        List.range' (progress.reached items)
          ((progress.move task items move).reached items - progress.reached items) := by
  cases move with
  | cancel => simp [taken?, Progress.move, reached]
  | step worker =>
      have stepped := stepped_advance task items progress worker
      simp only [Progress.move]
      generalize progress.advance task items worker = after at stepped ⊢
      cases stepped with
      | idle ended =>
          have idle : progress.phases[worker]? ≠ some .cleared := fun there => by
            simpa [Phase.active, Phase.weight] using ended _ there
          simp [taken?, idle]
      | look there => simp [taken?, there, reached, Progress.enter]
      | take there more =>
          have before : min progress.next items.length = progress.next := Nat.min_eq_left more.le
          have after : min (progress.next + 1) items.length = progress.next + 1 :=
            Nat.min_eq_left more
          simp only [taken?, there, reached, before, after]
          simp [more]
      | leave there past =>
          have same : min (progress.next + 1) items.length = min progress.next items.length := by
            omega
          simp [taken?, there, reached, Nat.not_lt.mpr past, same]
      | work there _ _ => simp [taken?, there, reached, Progress.enter]
      | crash there _ _ => simp [taken?, there, reached, Progress.enter]
      | stray there _ => simp [taken?, there, reached, Progress.enter]

/-- The numbers up to a middle and those from it on. -/
theorem range'_append_range' {first middle last : Nat} (lower : first ≤ middle)
    (upper : middle ≤ last) :
    List.range' first (middle - first) ++ List.range' middle (last - middle) =
      List.range' first (last - first) := by
  obtain ⟨before, rfl⟩ := Nat.exists_eq_add_of_le lower
  obtain ⟨after, rfl⟩ := Nat.exists_eq_add_of_le upper
  rw [Nat.add_sub_cancel_left, Nat.add_sub_cancel_left, Nat.add_assoc, Nat.add_sub_cancel_left]
  exact List.range'_append_1

/-- Workers take the positions of the items in order. -/
theorem map_snd_takes (task : Task ι σ ρ) (items : List ι) (progress : Progress σ ρ)
    (schedule : List Move) :
    progress.reached items ≤
        (schedule.foldl (Progress.move task items) progress).reached items ∧
      (progress.takes task items schedule).map Prod.snd =
        List.range' (progress.reached items)
          ((schedule.foldl (Progress.move task items) progress).reached items -
            progress.reached items) := by
  induction schedule generalizing progress with
  | nil => simp [takes]
  | cons move moves hypothesis =>
      obtain ⟨first, taken⟩ := taken_move task items progress move
      obtain ⟨later, others⟩ := hypothesis (progress.move task items move)
      rw [takes, List.map_append, taken, others, List.foldl_cons]
      exact ⟨Nat.le_trans first later, range'_append_range' first later⟩

/-- What holds of a pool after every move of such a run: the positions before the next one were
taken, and a worker stops only after the last item or after a request for cancellation. -/
structure Steady (items : List ι) (holds flagged : σ → Prop) (progress : Progress σ ρ) : Prop where
  holds : holds progress.state
  standing : .crashed ∉ progress.phases
  staffed : progress.phases ≠ []
  claimed : progress.claimed.Perm (List.range (progress.reached items))
  stopped : .stopped ∈ progress.phases → items.length ≤ progress.next ∨ flagged progress.state

/-- A pool with workers is steady before its first step. -/
theorem steady_start {workers : Nat} (staffed : workers ≠ 0) (begun : holds state) :
    (start workers state : Progress σ ρ).Steady items holds flagged := by
  refine ⟨begun, ?_, by simpa [start] using staffed, ?_, ?_⟩
  · simp [start]
  · simp [claimed, start, reached, Phase.position?]
  · simp [start]

/-- A pool stays steady when a worker enters another phase, if the positions that were taken are
still those before the next one, and there is a reason for the worker to stop if it does. -/
theorem Steady.enter (steady : progress.Steady items holds flagged) {after : Progress σ ρ}
    {worker : Nat} (new : Phase) (entered : after.phases = progress.phases.set worker new)
    (whole : new ≠ .crashed) (kept : holds after.state)
    (claimed : after.claimed.Perm (List.range (after.reached items)))
    (stopped : new = .stopped → items.length ≤ after.next ∨ flagged after.state)
    (later : progress.next ≤ after.next) (stays : flagged progress.state → flagged after.state) :
    after.Steady items holds flagged := by
  refine ⟨kept, fun listed => ?_, ?_, claimed, fun listed => ?_⟩
  · rw [entered] at listed
    rcases List.mem_or_eq_of_mem_set listed with before | now
    · exact steady.standing before
    · exact whole now.symm
  · rw [entered]
    intro empty
    have none := congrArg List.length empty
    rw [List.length_set] at none
    exact steady.staffed (List.eq_nil_of_length_eq_zero none)
  · rw [entered] at listed
    rcases List.mem_or_eq_of_mem_set listed with before | now
    · exact (steady.stopped before).imp (fun past => Nat.le_trans past later) stays
    · exact stopped now.symm

/-- One step of a worker keeps a pool steady. -/
theorem Steady.advance (steady : progress.Steady items holds flagged)
    (regime : Regime task items schedule holds flagged) (worker : Nat) :
    (progress.advance task items worker).Steady items holds flagged := by
  have stepped := stepped_advance task items progress worker
  generalize progress.advance task items worker = after at stepped ⊢
  cases stepped with
  | idle _ => exact steady
  | look there =>
      cases seen : task.cancelled progress.state with
      | true =>
          have flag := regime.seen _ steady.holds seen
          exact steady.enter .stopped rfl (by simp) steady.holds
            ((claimed_enter there .stopped).trans steady.claimed) (fun _ => .inr flag)
            (Nat.le_refl progress.next) id
      | false =>
          exact steady.enter .cleared rfl (by simp) steady.holds
            ((claimed_enter there .cleared).trans steady.claimed) (by simp)
            (Nat.le_refl progress.next) id
  | take there more =>
      have taken : ({ progress.enter worker (.holding progress.next) with
          next := progress.next + 1 } : Progress σ ρ).claimed.Perm
          (progress.next :: progress.claimed) := claimed_enter there (.holding progress.next)
      refine steady.enter (.holding progress.next) rfl (by simp) steady.holds ?_ (by simp)
        (Nat.le_succ _) id
      have before : progress.reached items = progress.next := Nat.min_eq_left more.le
      have after : min (progress.next + 1) items.length = progress.next + 1 :=
        Nat.min_eq_left more
      have claimed := steady.claimed
      rw [before] at claimed
      rw [reached, after, List.range_succ]
      exact (taken.trans (claimed.cons _)).trans (List.perm_append_singleton _ _).symm
  | leave there past =>
      refine steady.enter .stopped rfl (by simp) steady.holds ?_
        (fun _ => .inl (Nat.le_succ_of_le past)) (Nat.le_succ _) id
      have same : min (progress.next + 1) items.length = progress.reached items := by
        rw [reached, Nat.min_eq_right past, Nat.min_eq_right (Nat.le_succ_of_le past)]
      rw [reached, same]
      exact (claimed_enter there .stopped).trans steady.claimed
  | @work position item result later there found worked =>
      obtain ⟨_, _, same, kept, stays⟩ :=
        regime.work item (List.mem_of_getElem? found) _ steady.holds
      rw [worked] at same
      cases same
      exact steady.enter .ready rfl (by simp) kept
        ((claimed_enter there .ready).trans steady.claimed) (by simp) (Nat.le_refl progress.next)
        stays
  | @crash position item later there found worked =>
      obtain ⟨_, _, same, _⟩ := regime.work item (List.mem_of_getElem? found) _ steady.holds
      rw [worked] at same
      cases same
  | @stray position there nothing =>
      have listed : position ∈ progress.claimed := List.mem_append_right _
        (List.mem_filterMap.mpr ⟨_, List.mem_of_getElem? there, rfl⟩)
      have bound := List.mem_range.mp (steady.claimed.mem_iff.mp listed)
      have within : position < items.length := Nat.lt_of_lt_of_le bound (Nat.min_le_right _ _)
      exact absurd (List.getElem?_eq_none_iff.mp nothing) (Nat.not_le.mpr within)

/-- A schedule keeps a pool steady. -/
theorem Steady.moves (steady : progress.Steady items holds flagged)
    (regime : Regime task items schedule holds flagged) :
    (schedule.foldl (Progress.move task items) progress).Steady items holds flagged := by
  induction schedule generalizing progress with
  | nil => exact steady
  | cons move moves hypothesis =>
      have rest := regime.mono (fun _ => id) (List.mem_cons_of_mem move)
      refine hypothesis ?_ rest
      cases move with
      | step worker => exact steady.advance regime worker
      | cancel =>
          obtain ⟨kept, stays⟩ := regime.cancel List.mem_cons_self _ steady.holds
          exact ⟨kept, steady.standing, steady.staffed, steady.claimed,
            fun listed => (steady.stopped listed).imp_right stays⟩

/-- Bringing a pool to its end is one more schedule, of steps alone. -/
theorem exists_steps_drain (task : Task ι σ ρ) (items : List ι) (progress : Progress σ ρ) :
    ∃ steps : List Nat, progress.drain task items =
      (steps.map Move.step).foldl (Progress.move task items) progress := by
  fun_induction Progress.drain task items progress with
  | case1 => exact ⟨[], rfl⟩
  | case2 progress worker _ hypothesis =>
      obtain ⟨steps, same⟩ := hypothesis
      exact ⟨worker :: steps, same⟩

/-- At the end all workers have ended. -/
theorem ended_drain (task : Task ι σ ρ) (items : List ι) (progress : Progress σ ρ) :
    ∀ phase ∈ (progress.drain task items).phases, phase.active = false := by
  fun_induction Progress.drain task items progress with
  | case1 progress none => exact List.findIdx?_eq_none_iff.mp none
  | case2 progress worker _ hypothesis => exact hypothesis

/-- Several workers go through a schedule and on to their end as through a longer schedule. -/
theorem exists_steps_ended (schedule : List Move) (workers : Nat) (task : Task ι σ ρ)
    (items : List ι) (state : σ) :
    ∃ steps : List Nat, Progress.ended schedule workers task items state =
      (schedule ++ steps.map Move.step).foldl (Progress.move task items) (start workers state) := by
  obtain ⟨steps, same⟩ :=
    exists_steps_drain task items (schedule.foldl (Progress.move task items) (start workers state))
  exact ⟨steps, by rw [Progress.ended, same, List.foldl_append]⟩

/-- At the end of a steady run there is a result for every position that was taken, and the workers
came to the end of the items or to a flag. -/
theorem Steady.ended (regime : Regime task items schedule holds flagged) {workers : Nat}
    (staffed : workers ≠ 0) (state : σ) (begun : holds state) :
    (Progress.ended schedule workers task items state).Steady items holds flagged ∧
      ((Progress.ended schedule workers task items state).results.map Prod.fst).Perm
        (List.range ((Progress.ended schedule workers task items state).reached items)) ∧
      (items.length ≤ (Progress.ended schedule workers task items state).next ∨
        flagged (Progress.ended schedule workers task items state).state) := by
  have steady : (Progress.ended schedule workers task items state).Steady items holds flagged := by
    obtain ⟨steps, same⟩ := exists_steps_ended schedule workers task items state
    rw [same]
    exact (steady_start staffed begun).moves (regime.mono (fun _ => id) (by simp))
  have inactive := ended_drain task items
    (schedule.foldl (Progress.move task items) (start workers state))
  have stopped : ∀ phase ∈ (Progress.ended schedule workers task items state).phases,
      phase = .stopped := by
    intro phase listed
    have past := inactive phase listed
    cases phase with
    | stopped => rfl
    | crashed => exact absurd listed steady.standing
    | ready | cleared | holding => simp [Phase.active, Phase.weight] at past
  refine ⟨steady, ?_, ?_⟩
  · have none : (Progress.ended schedule workers task items state).phases.filterMap
        Phase.position? = [] :=
      List.filterMap_eq_nil_iff.mpr fun phase listed => by rw [stopped phase listed]; rfl
    have claimed := steady.claimed
    rwa [Progress.claimed, none, List.append_nil] at claimed
  · obtain ⟨phase, listed⟩ := List.exists_mem_of_ne_nil _ steady.staffed
    exact steady.stopped (stopped phase listed ▸ listed)

/-- A pool of which no worker crashed has all results, or some are missing and it was cancelled. -/
theorem collect_cases (items : Nat) (standing : .crashed ∉ progress.phases) :
    (∃ results, progress.collect items = .ok results) ∨
      (∃ position < items, position ∉ progress.results.map Prod.fst) ∧
        progress.collect items = .error .cancelled := by
  have whole : progress.phases.contains .crashed = false := by simpa using standing
  simp only [collect, whole, Bool.false_eq_true, if_false]
  split
  · next results _ => exact .inl ⟨results, rfl⟩
  · next missing =>
      refine .inr ⟨?_, rfl⟩
      obtain ⟨position, listed, nothing⟩ := exists_of_mapM_eq_none missing
      refine ⟨position, List.mem_range.mp listed, fun inside => ?_⟩
      obtain ⟨entry, given, rfl⟩ := List.mem_map.mp inside
      have apart := List.lookup_eq_none_iff.mp nothing entry given
      simp at apart

end Progress

/-- A run in which no work crashes has all results, unless a worker saw a request for
cancellation. -/
theorem Regime.run (regime : Regime task items schedule holds flagged) (state : σ)
    (begun : holds state) (jobs : Nat) :
    holds (run schedule jobs task items state).2 ∧
      ((∃ results, (run schedule jobs task items state).1 = .ok results) ∨
        (run schedule jobs task items state).1 = .error .cancelled ∧
          flagged (run schedule jobs task items state).2) := by
  unfold Pool.run
  simp only
  split
  · obtain ⟨kept, whole | ⟨halted, flag⟩⟩ := regime.solo state begun
    · exact ⟨kept, .inl ⟨(Solo.ofItems task schedule items state).results, by simp only [runAlone, whole]⟩⟩
    · exact ⟨kept, .inr ⟨by simp [runAlone, halted], flag⟩⟩
  · next several =>
      have staffed : min jobs items.length ≠ 0 := by omega
      obtain ⟨steady, results, past⟩ := Progress.Steady.ended regime staffed state begun
      refine ⟨steady.holds, ?_⟩
      rcases Progress.collect_cases items.length steady.standing with
        whole | ⟨⟨position, bound, missing⟩, stopped⟩
      · exact .inl whole
      · refine .inr ⟨stopped, past.resolve_left fun all => missing ?_⟩
        have reached : (Progress.ended schedule (min jobs items.length) task items state).reached
            items = items.length := Nat.min_eq_right all
        rw [reached] at results
        exact results.mem_iff.mpr (List.mem_range.mpr bound)

section Guarded

variable {ε : Type} {task : Task ι σ (Except ε ρ)} {allowed : ε → Prop}

/-- Work that can fail, but only with certain errors, while nobody requests cancellation. Something
holds of the state all the time. -/
structure Conduct (task : Task ι σ (Except ε ρ)) (items : List ι) (schedule : List Move)
    (holds : σ → Prop) (allowed : ε → Prop) : Prop where
  work : ∀ item ∈ items, ∀ state, holds state → ∃ outcome later,
    task.work item state = (some outcome, later) ∧ holds later ∧
      ∀ error, outcome = .error error → allowed error
  quiet : .cancel ∉ schedule
  calm : ∀ state, holds state → task.cancelled state = false

/-- What holds of the state of such a pool: its failure is an error of the work. -/
def Guarded.Proper (holds : σ → Prop) (allowed : ε → Prop) (guarded : Guarded ε σ) : Prop :=
  holds guarded.state ∧
    ∀ failure, guarded.failure = some failure → ∃ error, allowed error ∧ failure = .failed error

/-- Work of good conduct does not crash when it is guarded, and its failures are its own errors. -/
theorem Conduct.regime (conduct : Conduct task items schedule holds allowed) :
    Regime (guardedTask task) items schedule (Guarded.Proper holds allowed)
      (fun guarded => guarded.failure.isSome = true) := by
  refine ⟨fun item listed guarded proper => ?_, fun requested => absurd requested conduct.quiet,
    fun _ _ failed => failed⟩
  obtain ⟨outcome, later, worked, kept, fine⟩ := conduct.work item listed guarded.state proper.1
  have calm := conduct.calm guarded.state proper.1
  cases outcome with
  | ok result =>
      exact ⟨some result, { guarded with state := later },
        by simp [guardedTask, guardedWork, calm, worked], ⟨kept, proper.2⟩, id⟩
  | error error =>
      refine ⟨none, Guarded.fail { guarded with state := later } (.failed error),
        by simp [guardedTask, guardedWork, calm, worked], ⟨kept, fun failure failed => ?_⟩, ?_⟩
      · cases earlier : guarded.failure with
        | none =>
            simp only [Guarded.fail, earlier, Option.none_or, Option.some.injEq] at failed
            exact ⟨error, fine error rfl, failed.symm⟩
        | some first =>
            simp only [Guarded.fail, earlier, Option.some_or, Option.some.injEq] at failed
            exact failed ▸ proper.2 first earlier
      · cases guarded.failure <;> simp [Guarded.fail]

/-- Guarded work without a failure has a result, and there was no failure before it. -/
theorem isSome_of_guardedWork {item : ι} {result : Option ρ} {before after : Guarded ε σ}
    (worked : guardedWork task item before = (some result, after)) (sound : after.failure = none) :
    result.isSome = true ∧ before.failure = none := by
  have unfailed : ∀ (guarded : Guarded ε σ) (failure : Failure ε),
      (guarded.fail failure).failure ≠ none := by
    intro guarded failure
    cases earlier : guarded.failure <;> simp [Guarded.fail, earlier]
  rcases guardedWork_cases task item before with
    same | ⟨_, _, same⟩ | ⟨_, _, _, same⟩ | ⟨_, _, _, same⟩ <;> rw [worked] at same <;> cases same
  · exact absurd sound (unfailed _ _)
  · exact ⟨rfl, sound⟩
  · exact absurd sound (unfailed _ _)

/-- Without a failure in the end all work has given results. -/
theorem isSome_of_history {initial guarded : Guarded ε σ} {done : List (Nat × Option ρ)}
    (history : History (guardedTask task) items initial done guarded)
    (sound : guarded.failure = none) : ∀ entry ∈ done, entry.2.isSome = true := by
  induction history with
  | start => simp
  | work _ _ worked hypothesis =>
      obtain ⟨given, before⟩ := isSome_of_guardedWork worked sound
      exact List.forall_mem_cons.mpr ⟨given, hypothesis before⟩
  | cancel _ hypothesis => exact hypothesis sound

/-- A pool of work that can fail has all results, or its outcome is an error of the work. -/
theorem Conduct.tryRun (conduct : Conduct task items schedule holds allowed) (state : σ)
    (begun : holds state) (jobs : Nat) :
    holds (tryRun schedule jobs task items state).2 ∧
      ((∃ results, (tryRun schedule jobs task items state).1 = .ok results) ∨
        ∃ error, allowed error ∧
          (tryRun schedule jobs task items state).1 = .error (.failed error)) := by
  have initial : Guarded.Proper holds allowed ⟨state, none⟩ :=
    ⟨begun, fun _ failed => by cases failed⟩
  obtain ⟨⟨kept, failures⟩, ended⟩ := conduct.regime.run _ initial jobs
  refine ⟨kept, ?_⟩
  unfold Pool.tryRun
  cases ran : run schedule jobs (guardedTask task) items ⟨state, none⟩ with
  | mk outcome guarded =>
      rw [ran] at failures ended
      simp only at failures ended ⊢
      cases failed : guarded.failure with
      | some failure =>
          obtain ⟨error, fine, rfl⟩ := failures failure failed
          exact .inr ⟨error, fine, rfl⟩
      | none =>
          rw [failed] at ended
          obtain ⟨results, rfl⟩ := ended.resolve_right (by simp)
          have finished := finished_of_run ran
          cases mapped : results.mapM id with
          | some values => exact .inl ⟨values, by simp [mapped]⟩
          | none =>
              obtain ⟨result, listed, nothing⟩ := exists_of_mapM_eq_none mapped
              obtain ⟨position, there⟩ := List.getElem?_of_mem listed
              have given := isSome_of_history finished.history failed _ (finished.mem_done there)
              rw [show result = none from nothing] at given
              cases given

end Guarded

/-- How several workers share the items. Under a schedule and the steps that bring them to their end
they take positions in order, each once, and every position that was taken has a result then. -/
structure Shares (task : Task ι σ ρ) (items : List ι) (state : σ) (workers : Nat)
    (schedule : List Move) (steps : List Nat) : Prop where
  whole : Progress.ended schedule workers task items state =
    (schedule ++ steps.map Move.step).foldl (Progress.move task items) (.start workers state)
  taken : ∃ count ≤ items.length,
    ((Progress.start workers state).takes task items (schedule ++ steps.map Move.step)).map
      Prod.snd = List.range count
  finished : ((Progress.ended schedule workers task items state).results.map Prod.fst).Perm
    (((Progress.start workers state).takes task items (schedule ++ steps.map Move.step)).map
      Prod.snd)

/-- How a run has gone, whatever came of it. -/
structure Orderly (task : Task ι σ ρ) (items : List ι) (state : σ) (done : List (Nat × ρ))
    (outcome : Except Halt (List ρ)) (later : σ) : Prop where
  /-- All work was on items, and its results stand with their positions. -/
  history : History task items state done later
  /-- No item was worked on twice. -/
  once : (done.map Prod.fst).Nodup
  /-- A list of results is that of one work on each item, in the order of the items. -/
  whole : ∀ results, outcome = .ok results → Finished task items state done results later
  /-- Without the work on every item the run was cancelled. -/
  cancelled : (∃ position < items.length, position ∉ done.map Prod.fst) →
    outcome = .error .cancelled
  /-- With it the run was not. -/
  completed : (∀ position < items.length, position ∈ done.map Prod.fst) →
    ∃ results, outcome = .ok results

/-- Nobody requests cancellation: not before the run, not while it goes on, and no work does. -/
structure Undisturbed (task : Task ι σ ρ) (items : List ι) (schedule : List Move) (state : σ) :
    Prop where
  before : task.cancelled state = false
  outside : .cancel ∉ schedule
  inside : ∀ item ∈ items, ∀ state, task.cancelled state = false →
    task.cancelled (task.work item state).2 = false

/-- The work on every item comes to its end. -/
def Steadfast (task : Task ι σ ρ) (items : List ι) : Prop :=
  ∀ item ∈ items, ∀ state, ∃ result later, task.work item state = (some result, later)

/-- Steadfast work crashes under no schedule. -/
theorem regime_of_steadfast (steadfast : Steadfast task items) (schedule : List Move) :
    Regime task items schedule (fun _ => True) (fun _ => True) := by
  refine ⟨fun item listed state _ => ?_, fun _ _ _ => ⟨trivial, id⟩, fun _ _ _ => trivial⟩
  obtain ⟨result, later, worked⟩ := steadfast item listed state
  exact ⟨result, later, worked, trivial, id⟩

/-- Without requests for cancellation, steadfast work goes on to the last item. -/
theorem regime_of_undisturbed (steadfast : Steadfast task items)
    (undisturbed : Undisturbed task items schedule state) :
    Regime task items schedule (fun state => task.cancelled state = false) (fun _ => False) := by
  refine ⟨fun item listed state quiet => ?_, fun requested => absurd requested undisturbed.outside,
    fun state quiet seen => ?_⟩
  · obtain ⟨result, later, worked⟩ := steadfast item listed state
    have kept := undisturbed.inside item listed state quiet
    rw [worked] at kept
    exact ⟨result, later, worked, kept, id⟩
  · rw [quiet] at seen
    cases seen

/-- The workers of a pool share the items of steadfast work under every schedule. -/
theorem exists_shares (steadfast : Steadfast task items) {workers : Nat} (staffed : workers ≠ 0)
    (schedule : List Move) (state : σ) : ∃ steps, Shares task items state workers schedule steps := by
  obtain ⟨steps, same⟩ := Progress.exists_steps_ended schedule workers task items state
  obtain ⟨_, results, _⟩ :=
    Progress.Steady.ended (regime_of_steadfast steadfast schedule) staffed state trivial
  obtain ⟨_, taken⟩ := Progress.map_snd_takes task items (.start workers state)
    (schedule ++ steps.map Move.step)
  have begun : (Progress.start workers state : Progress σ ρ).reached items = 0 :=
    Nat.zero_min items.length
  rw [begun, Nat.sub_zero, ← List.range_eq_range', ← same] at taken
  refine ⟨steps, same, ⟨_, Nat.min_le_right _ _, taken⟩, ?_⟩
  rw [taken]
  exact results

/-- What a worker alone has done: work on the first items, in their order. -/
theorem worked_alone (steadfast : Steadfast task items) (schedule : List Move) (state : σ) :
    History task items state (placed 0 (Solo.ofItems task schedule items state).results).reverse
        (Solo.ofItems task schedule items state).state ∧
      ((∀ position < items.length, position ∈
          (placed 0 (Solo.ofItems task schedule items state).results).reverse.map Prod.fst) →
        (Solo.ofItems task schedule items state).halt = none) := by
  have either := ((regime_of_steadfast steadfast schedule).solo state trivial).2
  have standing : (Solo.ofItems task schedule items state).halt ≠ some .crashed := by
    rcases either with whole | ⟨halted, _⟩ <;> simp [*]
  have history := Solo.history (List.nil_append items).symm .start standing
  rw [List.append_nil, List.length_nil] at history
  refine ⟨history, fun all => (Solo.halt_eq_none_iff task schedule items state).mpr ?_⟩
  have positions := map_fst_placed 0 (Solo.ofItems task schedule items state).results
  generalize (Solo.ofItems task schedule items state).results = results at *
  have inside : ∀ position, position < items.length ↔ position < results.length := by
    intro position
    have listed : position ∈ (placed 0 results).reverse.map Prod.fst ↔
        position < results.length := by
      rw [List.map_reverse, List.mem_reverse, positions, ← List.range_eq_range', List.mem_range]
    constructor
    · exact fun bound => listed.mp (all position bound)
    · intro bound
      obtain ⟨entry, given, rfl⟩ := List.mem_map.mp (listed.mpr bound)
      exact history.position_lt entry given
  have first := inside items.length
  have last := inside results.length
  omega

/-- A run in which every work comes to its end is orderly. -/
theorem orderly_of_steadfast (steadfast : Steadfast task items) (schedule : List Move)
    (jobs : Nat) (state : σ) :
    Orderly task items state (worked schedule jobs task items state)
      (run schedule jobs task items state).1 (run schedule jobs task items state).2 := by
  have regime := regime_of_steadfast steadfast schedule
  have whole : ∀ results, (run schedule jobs task items state).1 = .ok results →
      Finished task items state (worked schedule jobs task items state) results
        (run schedule jobs task items state).2 :=
    fun results same => finished_of_run (Prod.ext same rfl)
  have cancelled : (∃ position < items.length,
      position ∉ (worked schedule jobs task items state).map Prod.fst) →
      (run schedule jobs task items state).1 = .error .cancelled := by
    rintro ⟨position, bound, missing⟩
    rcases (regime.run state trivial jobs).2 with ⟨results, same⟩ | ⟨stopped, _⟩
    · exact absurd ((whole results same).once.mem_iff.mpr (List.mem_range.mpr bound)) missing
    · exact stopped
  unfold worked run at *
  simp only at *
  split at whole
  · next alone =>
      simp only [if_pos alone] at *
      obtain ⟨history, completed⟩ := worked_alone steadfast schedule state
      refine ⟨history, ?_, whole, cancelled, fun all => ?_⟩
      · rw [List.map_reverse, map_fst_placed]
        exact (List.reverse_perm _).nodup_iff.mpr List.nodup_range'
      · exact ⟨(Solo.ofItems task schedule items state).results,
          by simp only [runAlone, completed all]⟩
  · next several =>
      simp only [if_neg several] at *
      have staffed : min jobs items.length ≠ 0 := by omega
      obtain ⟨steady, results, _⟩ := Progress.Steady.ended regime staffed state trivial
      have sound : (Progress.ended schedule (min jobs items.length) task items state).Sound task
          items state := (Progress.sound_start task items _ state).schedule schedule |>.drain
      refine ⟨sound.history steady.standing, ?_, whole, cancelled, fun all => ?_⟩
      · exact results.nodup_iff.mpr List.nodup_range
      · rcases Progress.collect_cases items.length steady.standing with
          ended | ⟨⟨position, bound, missing⟩, _⟩
        · exact ended
        · exact absurd (all position bound) missing

/-- The results of work that does not depend on the state are those of the items. -/
theorem Finished.eq_map {done : List (Nat × ρ)} {results : List ρ} {later : σ}
    (finished : Finished task items state done results later) {f : ι → ρ}
    (pure : ∀ item ∈ items, ∀ state, (task.work item state).1 = some (f item)) :
    results = items.map f := by
  refine List.ext_getElem (by simp [finished.length]) fun position bound inside => ?_
  have listed := finished.mem_done (List.getElem?_eq_getElem bound)
  obtain ⟨item, before, after, there, worked⟩ := finished.history.exists_work _ listed
  obtain ⟨short, same⟩ := List.getElem?_eq_some_iff.mp there
  have given := pure item (List.mem_of_getElem? there) before
  rw [worked] at given
  rw [List.getElem_map, same]
  exact Option.some.inj given

/-- Any number of workers under any schedule, with cancellation requested at any moment, take each
position once, and what they take they work on. Their run gives the work on every item, in the order
of the items, or it was cancelled. Undisturbed it gives that always, and if the work does not depend
on the state, just what one worker gives. -/
theorem run_orderly (task : Task ι σ ρ) (items : List ι) (steadfast : Steadfast task items)
    (schedule : List Move) (jobs : Nat) (state : σ) :
    (∀ workers ≠ 0, ∃ steps, Shares task items state workers schedule steps) ∧
      Orderly task items state (worked schedule jobs task items state)
        (run schedule jobs task items state).1 (run schedule jobs task items state).2 ∧
      (Undisturbed task items schedule state →
        ∃ results, (run schedule jobs task items state).1 = .ok results) ∧
      ∀ f : ι → ρ, (∀ item ∈ items, ∀ state, (task.work item state).1 = some (f item)) →
        (∀ results, (run schedule jobs task items state).1 = .ok results →
          results = items.map f) ∧
        (Undisturbed task items schedule state →
          (run schedule jobs task items state).1 = (run [] 1 task items state).1) := by
  have ends : ∀ schedule jobs, Undisturbed task items schedule state →
      ∃ results, (run schedule jobs task items state).1 = .ok results := by
    intro schedule jobs undisturbed
    have regime := regime_of_undisturbed steadfast undisturbed
    exact (regime.run state undisturbed.before jobs).2.resolve_right fun stopped => stopped.2
  have orderly := fun schedule jobs => orderly_of_steadfast steadfast schedule jobs state
  refine ⟨fun workers staffed => exists_shares steadfast staffed schedule state,
    orderly schedule jobs, ends schedule jobs, fun f pure => ?_⟩
  have given : ∀ schedule jobs results, (run schedule jobs task items state).1 = .ok results →
      results = items.map f :=
    fun schedule jobs results same => ((orderly schedule jobs).whole results same).eq_map pure
  refine ⟨given schedule jobs, fun undisturbed => ?_⟩
  obtain ⟨results, same⟩ := ends schedule jobs undisturbed
  obtain ⟨others, again⟩ := ends [] 1 ⟨undisturbed.before, by simp, undisturbed.inside⟩
  rw [same, again, given schedule jobs results same, given [] 1 others again]

/-- Work that doubles numbers. The state is the request for cancellation. -/
def doubling : Task Nat Bool Nat where
  cancelled := id
  cancel _ := true
  work item state := (some (2 * item), state)

/-- Two workers that both look for cancellation before either takes a position. -/
def bothLook : List Move := [.step 1, .step 0, .step 0, .step 1, .step 1, .step 0]

/-- The doubling of three numbers by two workers that look at the same time is orderly, and all
three results are there. -/
theorem doubling_orderly :
    Steadfast doubling [1, 2, 3] ∧ Undisturbed doubling [1, 2, 3] bothLook false ∧
      (∃ steps, Shares doubling [1, 2, 3] false 2 bothLook steps) ∧
      (run bothLook 2 doubling [1, 2, 3] false).1 = .ok [2, 4, 6] := by
  have steadfast : Steadfast doubling [1, 2, 3] := fun item _ state => ⟨2 * item, state, rfl⟩
  have undisturbed : Undisturbed doubling [1, 2, 3] bothLook false :=
    ⟨rfl, by decide, fun _ _ _ quiet => quiet⟩
  obtain ⟨shares, _, _, alike⟩ := run_orderly doubling [1, 2, 3] steadfast bothLook 2 false
  refine ⟨steadfast, undisturbed, shares 2 (by decide), ?_⟩
  rw [(alike (2 * ·) fun _ _ _ => rfl).2 undisturbed]
  rfl

end SchemaBeans.Pool
