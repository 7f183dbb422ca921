import SchemaBeans.Proofs.Delivery
import SchemaBeans.Proofs.Interleavings

/-!
# When the output directory is registered

A run registers its output directory once, after it has made its plan and before it
changes any file. A run that gets no plan registers nothing and changes nothing.
-/

namespace SchemaBeans.Generation

variable {host between later : Host} {options : EmitOptions}

/-- Nobody requests cancellation while a run goes on. -/
def Schedule.Untouched (schedule : Schedule) : Prop :=
  .cancel ∉ schedule.loading ∧ .cancel ∉ schedule.writing

/-- What loading documents leaves as it was. -/
structure Idle (before after : Host) : Prop where
  files : after.files = before.files
  registered : after.registered = before.registered
  cancelled : after.cancelled = before.cancelled

/-- Loading neither crashes nor changes the host, other than in its log. -/
theorem regime_loading (documents : List SchemaFile) {schedule : List Pool.Move}
    (quiet : .cancel ∉ schedule) :
    Pool.Regime Loading.task documents schedule (Idle host)
      (fun _ => host.cancelled = true) := by
  refine ⟨fun document _ state idle => ?_, fun requested => absurd requested quiet,
    fun state idle seen => idle.cancelled ▸ seen⟩
  cases loaded : document.load state.files with
  | ok model =>
      exact ⟨.ok model, state.tell (Loading.loadedEvent document model),
        by simp [Loading.task, loaded], ⟨idle.files, idle.registered, idle.cancelled⟩, id⟩
  | error error => exact ⟨.error error, state, by simp [Loading.task, loaded], idle, id⟩

/-- Loading fails because of the schema root, or because cancellation was requested before. -/
theorem ofRoot_cases {schedule : List Pool.Move} (quiet : .cancel ∉ schedule) (jobs : Nat)
    (root : Path) (host : Host) :
    Idle host (Loading.ofRoot schedule jobs root host).2 ∧
      ((∃ error, (Loading.ofRoot schedule jobs root host).1 = .error (.discovery error)) ∨
        ((Loading.ofRoot schedule jobs root host).1 = .error (.halted .cancelled) ∧
          host.cancelled = true) ∨
        ∃ loading, (Loading.ofRoot schedule jobs root host).1 = .ok loading) := by
  unfold Loading.ofRoot
  split
  · next error events _ => exact ⟨⟨rfl, rfl, rfl⟩, .inl ⟨error, rfl⟩⟩
  · next discovery events _ =>
      have regime : Pool.Regime Loading.task discovery.files schedule (Idle (host.tellAll events))
          (fun _ => host.cancelled = true) := regime_loading discovery.files quiet
      obtain ⟨idle, ended⟩ := regime.run _ ⟨rfl, rfl, rfl⟩ jobs
      split
      · next halt state ran =>
          rw [ran] at idle ended
          rcases ended with ⟨results, whole⟩ | ⟨stopped, requested⟩
          · cases whole
          · cases stopped
            exact ⟨⟨idle.files, idle.registered, idle.cancelled⟩, .inr (.inl ⟨rfl, requested⟩)⟩
      · next results state ran =>
          rw [ran] at idle
          exact ⟨⟨idle.files, idle.registered, idle.cancelled⟩, .inr (.inr ⟨_, rfl⟩)⟩

/-- A plan is made unless the schema root cannot be walked or cancellation was requested before, and
that it is made is told last. -/
theorem plan_cases {schedule : List Pool.Move} (quiet : .cancel ∉ schedule) (settings : Settings)
    (host : Host) :
    Idle host (plan schedule settings host).2 ∧
      ((∃ error, (plan schedule settings host).1 = .error (.discovery error)) ∨
        ((plan schedule settings host).1 = .error (.halted .cancelled) ∧ host.cancelled = true) ∨
        ∃ made, (plan schedule settings host).1 = .ok made ∧ host.cancelled = false ∧
          (plan schedule settings host).2.log.head? = some made.event) := by
  obtain ⟨idle, ended⟩ := ofRoot_cases quiet settings.jobs settings.schemaRoot
    (host.tell (startEvent settings))
  have kept : ∀ {after : Host}, Idle (host.tell (startEvent settings)) after → Idle host after :=
    fun idle => ⟨idle.files, idle.registered, idle.cancelled⟩
  unfold plan
  split
  · next error state loaded =>
      rw [loaded] at idle ended
      refine ⟨kept idle, ?_⟩
      rcases ended with ⟨error, same⟩ | ⟨same, requested⟩ | ⟨loading, same⟩
      · cases same
        exact .inl ⟨error, rfl⟩
      · cases same
        exact .inr (.inl ⟨rfl, requested⟩)
      · cases same
  · next loading state loaded =>
      rw [loaded] at idle
      have still := (kept idle).cancelled
      cases requested : state.cancelled with
      | true => exact ⟨kept idle, .inr (.inl ⟨rfl, still ▸ requested⟩)⟩
      | false =>
          exact ⟨⟨idle.files, idle.registered, idle.cancelled⟩,
            .inr (.inr ⟨_, rfl, still ▸ requested, rfl⟩)⟩

end SchemaBeans.Generation
