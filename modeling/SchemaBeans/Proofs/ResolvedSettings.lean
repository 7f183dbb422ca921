import Mathlib.Data.List.Basic
import SchemaBeans.Generation
import SchemaBeans.Proofs.Methods

/-!
# Resolved settings

Settings are resolved when the base package is one and all names of boilerplate
methods are known; which of them count, the overrides say. What is resolved is the
override where there is one and the configuration elsewhere, and a run never fails
for its settings afterwards.
-/

namespace SchemaBeans

namespace Boilerplate

variable {text name : String} {names : List String} {method : Boilerplate}
  {methods : List Boilerplate}

/-- Whether a name is that of a method. -/
def IsKnown (name : String) : Prop := ∃ method : Boilerplate, method.name = name

/-- Different methods are enabled by different names. -/
theorem name_injective {left right : Boilerplate} (same : left.name = right.name) :
    left = right := by
  cases left
  cases right
  rfl

/-- The list of all methods is complete. -/
theorem mem_all (method : Boilerplate) : method ∈ all := by
  cases method
  exact List.mem_singleton_self _

/-- A name enables the method that is called so, and no other. -/
theorem ofName?_eq_some_iff : ofName? text = some method ↔ method.name = text := by
  constructor
  · intro found
    simpa using List.find?_some found
  · intro named
    cases found : ofName? text with
    | none =>
        have unnamed : ¬ method.name = text := by
          simpa using List.find?_eq_none.mp found method (mem_all method)
        exact absurd named unnamed
    | some other =>
        have otherNamed : other.name = text := by simpa using List.find?_some found
        rw [name_injective (otherNamed.trans named.symm)]

/-- Names that are not known enable nothing. -/
theorem ofName?_eq_none_iff : ofName? text = none ↔ ¬ IsKnown text := by
  rw [Option.eq_none_iff_forall_ne_some]
  simp only [Ne, ofName?_eq_some_iff, IsKnown, not_exists]

/-- Methods are enabled by names: each that is named once, in the order of their first names. -/
structure Enables (names : List String) (methods : List Boilerplate) : Prop where
  named : ∀ method ∈ methods, method.name ∈ names
  once : ∀ method : Boilerplate, method.name ∈ names → methods.count method = 1
  ordered : methods.Pairwise fun left right => names.idxOf left.name < names.idxOf right.name

/-- The name that a selection fails at is the first one that enables nothing. -/
theorem find?_eq_some_iff_select : names.find? (fun name => (ofName? name).isNone) = some name ↔
    select names = .error name := by
  induction names with
  | nil => simp [select]
  | cons text texts hypothesis =>
      rw [select, List.find?_cons]
      cases ofName? text with
      | none => simp
      | some method =>
          rw [Option.isNone_some, hypothesis]
          cases select texts <;> simp [Except.map]

/-- A selection fails at the first name that is not known. -/
theorem select_eq_error_iff : select names = .error name ↔ ¬ IsKnown name ∧
    ∃ before after, names = before ++ name :: after ∧ ∀ earlier ∈ before, IsKnown earlier := by
  rw [← find?_eq_some_iff_select, List.find?_eq_some_iff_append]
  simp only [Bool.not_eq_true', Option.isNone_eq_false_iff, ← Option.ne_none_iff_isSome,
    Option.isNone_iff_eq_none, Ne, ofName?_eq_none_iff, not_not]

/-- It succeeds if all names are known. -/
theorem exists_select_iff :
    (∃ methods, select names = .ok methods) ↔ ∀ name ∈ names, IsKnown name := by
  have none_iff : (∃ methods, select names = .ok methods) ↔
      names.find? (fun name => (ofName? name).isNone) = none := by
    rw [Option.eq_none_iff_forall_ne_some]
    simp only [Ne, find?_eq_some_iff_select]
    cases select names <;> simp
  rw [none_iff, List.find?_eq_none]
  simp only [Option.isNone_iff_eq_none, ofName?_eq_none_iff, not_not]

/-- A name in front of others enables its method first, and only once. -/
theorem Enables.cons (enables : Enables names methods) (method : Boilerplate) :
    Enables (method.name :: names) (method :: methods.filter (· ≠ method)) := by
  have other {later : Boilerplate} (differs : later ≠ method) : method.name ≠ later.name :=
    fun same => differs (name_injective same.symm)
  constructor
  · intro later inside
    rcases List.mem_cons.mp inside with rfl | kept
    · exact List.mem_cons_self
    · exact List.mem_cons_of_mem _ (enables.named later (List.mem_filter.mp kept).1)
  · intro later listed
    by_cases same : later = method
    · subst same
      rw [List.count_cons_self, List.count_eq_zero.mpr (by simp)]
    · have earlier := enables.once later
        ((List.mem_cons.mp listed).resolve_left fun named => other same named.symm)
      have kept : (methods.filter (· ≠ method)).count later = methods.count later :=
        List.count_filter (decide_eq_true same)
      rw [List.count_cons_of_ne (Ne.symm same), kept, earlier]
  · have later_of_ne {later : Boilerplate} (inside : later ∈ methods.filter (· ≠ method)) :
        (method.name :: names).idxOf later.name = names.idxOf later.name + 1 := by
      have differs : later ≠ method := by simpa using (List.mem_filter.mp inside).2
      exact List.idxOf_cons_ne names (other differs)
    refine List.pairwise_cons.mpr ⟨fun later kept => ?_, ?_⟩
    · have first : (method.name :: names).idxOf method.name = 0 := List.idxOf_cons_self
      have behind := later_of_ne kept
      omega
    · refine (enables.ordered.filter _).imp_of_mem fun {left right} inLeft inRight before => ?_
      have leftBehind := later_of_ne inLeft
      have rightBehind := later_of_ne inRight
      omega

/-- What is selected is enabled by the names. -/
theorem enables_of_select (selected : select names = .ok methods) : Enables names methods := by
  induction names generalizing methods with
  | nil =>
      cases selected
      exact ⟨by simp, by simp, .nil⟩
  | cons text texts hypothesis =>
      rw [select] at selected
      cases found : ofName? text with
      | none =>
          rw [found] at selected
          cases selected
      | some method =>
          rw [found] at selected
          cases rest : select texts with
          | error unknown =>
              rw [rest] at selected
              cases selected
          | ok others =>
              rw [rest] at selected
              cases selected
              obtain rfl := ofName?_eq_some_iff.mp found
              exact (hypothesis rest).cons method

end Boilerplate

namespace Overrides

/-- The base package that counts. -/
def package (overrides : Overrides) (config : Config) : String :=
  overrides.basePackage.getD config.basePackage

/-- The names of boilerplate methods that count. -/
def methodNames (overrides : Overrides) (config : Config) : List String :=
  if overrides.boilerplate = [] then config.boilerplate else overrides.boilerplate

/-- The number of workers that is asked for. -/
def requestedJobs (overrides : Overrides) (config : Config) : Nat :=
  overrides.jobs.getD config.jobs

end Overrides

namespace Settings

variable {cores : Nat} {config : Config} {buildTool : Option String} {overrides : Overrides}
  {settings : Settings}

/-- Settings that are the overrides where these say something, and the configuration elsewhere. -/
structure Combines (cores : Nat) (config : Config) (buildTool : Option String)
    (overrides : Overrides) (settings : Settings) : Prop where
  schemaRoot : settings.schemaRoot = overrides.schemaRoot.getD config.schemaRoot
  outputDir : settings.outputDir = overrides.output.getD (config.resolvedOutput buildTool)
  basePackage : settings.basePackage = overrides.package config
  jobs : settings.jobs =
    if overrides.requestedJobs config = 0 then cores else overrides.requestedJobs config
  working : 1 ≤ settings.jobs
  echo : settings.echo = true ↔ overrides.echo = true ∨ config.echo = true
  boilerplate : settings.boilerplate = overrides.methodNames config

/-- Why settings are not resolved: the base package is checked first, then one name of a method
after the other. -/
inductive Refuses (config : Config) (overrides : Overrides) : SettingsError → Prop where
  | package (invalid : Identifier.isPackage (overrides.package config) = false) :
      Refuses config overrides (.invalidPackage (overrides.package config))
  | boilerplate {before : List String} {name : String} {after : List String}
      (valid : Identifier.isPackage (overrides.package config) = true)
      (unknown : ¬ Boilerplate.IsKnown name)
      (listed : overrides.methodNames config = before ++ name :: after)
      (known : ∀ earlier ∈ before, Boilerplate.IsKnown earlier) :
      Refuses config overrides (.unknownBoilerplate name)

/-- The overrides over the configuration, checked or not. -/
def combined (cores : Nat) (config : Config) (buildTool : Option String) (overrides : Overrides) :
    Settings where
  schemaRoot := overrides.schemaRoot.getD config.schemaRoot
  outputDir := overrides.output.getD (config.resolvedOutput buildTool)
  basePackage := overrides.package config
  jobs := effectiveJobs cores (overrides.requestedJobs config)
  echo := overrides.echo || config.echo
  boilerplate := overrides.methodNames config

/-- No number of workers asks for as many as there are cores. -/
theorem effectiveJobs_eq {requested : Nat} (available : 1 ≤ cores) :
    effectiveJobs cores requested = if requested = 0 then cores else requested := by
  unfold effectiveJobs
  split <;> split <;> omega

/-- There is at least one worker, whatever is asked for. -/
theorem effectiveJobs_pos (cores requested : Nat) : 1 ≤ effectiveJobs cores requested := by
  unfold effectiveJobs
  split <;> omega

/-- The combined settings say what the overrides say, and otherwise what the configuration does. -/
theorem combines_combined (available : 1 ≤ cores) :
    Combines cores config buildTool overrides (combined cores config buildTool overrides) where
  schemaRoot := rfl
  outputDir := rfl
  basePackage := rfl
  jobs := effectiveJobs_eq available
  working := effectiveJobs_pos _ _
  echo := Bool.or_eq_true_iff
  boilerplate := rfl

/-- Of what is combined, only the package and the names of methods are checked. -/
theorem resolve_eq : resolve cores config buildTool overrides =
    if Identifier.isPackage (overrides.package config) = true then
      match Boilerplate.select (overrides.methodNames config) with
      | .error name => .error (.unknownBoilerplate name)
      | .ok _ => .ok (combined cores config buildTool overrides)
    else .error (.invalidPackage (overrides.package config)) := by
  have names : (if overrides.boilerplate.isEmpty then config.boilerplate
      else overrides.boilerplate) = overrides.methodNames config := by
    simp only [Overrides.methodNames, List.isEmpty_iff]
  simp only [resolve, SettingsDraft.ofConfig, SettingsDraft.override, SettingsDraft.build, names,
    Option.or_some, Option.getD_some]
  cases valid : Identifier.isPackage (overrides.basePackage.getD config.basePackage) with
  | false => simp [Overrides.package, valid]
  | true =>
      simp only [Overrides.package, valid]
      cases Boilerplate.select (overrides.methodNames config) <;> rfl

/-- Settings are resolved when their base is a package and all names of methods are known, and they
are then the combined ones. -/
theorem resolve_eq_ok_iff : resolve cores config buildTool overrides = .ok settings ↔
    Identifier.isPackage (overrides.package config) = true ∧
      (∀ name ∈ overrides.methodNames config, Boilerplate.IsKnown name) ∧
      settings = combined cores config buildTool overrides := by
  rw [resolve_eq, ← Boilerplate.exists_select_iff]
  split
  · next valid =>
      cases Boilerplate.select (overrides.methodNames config) <;> simp [valid, eq_comm]
  · next invalid => simp [invalid]

/-- Settings are refused for one of two reasons, and the base package comes first. -/
theorem resolve_eq_error_iff {error : SettingsError} :
    resolve cores config buildTool overrides = .error error ↔ Refuses config overrides error := by
  rw [resolve_eq]
  constructor
  · intro failed
    split at failed
    · next valid =>
        split at failed
        · next name refused =>
            cases failed
            obtain ⟨unknown, before, after, listed, known⟩ :=
              Boilerplate.select_eq_error_iff.mp refused
            exact .boilerplate valid unknown listed known
        · cases failed
    · next invalid =>
        cases failed
        exact .package (Bool.eq_false_iff.mpr invalid)
  · intro refuses
    cases refuses with
    | package invalid => rw [if_neg (by simp [invalid])]
    | boilerplate valid unknown listed known =>
        have refused := Boilerplate.select_eq_error_iff.mpr ⟨unknown, _, _, listed, known⟩
        rw [if_pos valid, refused]

/-- Options are drawn from settings whose names of methods are known. -/
theorem exists_emitOptions (settings : Settings)
    (known : ∀ name ∈ settings.boilerplate, Boilerplate.IsKnown name) :
    ∃ methods, settings.emitOptions = .ok ⟨settings.basePackage, methods⟩ ∧
      Boilerplate.Enables settings.boilerplate methods := by
  obtain ⟨methods, selected⟩ := Boilerplate.exists_select_iff.mpr known
  refine ⟨methods, ?_, Boilerplate.enables_of_select selected⟩
  rw [emitOptions, selected]

end Settings

namespace Generation

variable {schedule : Schedule} {moves : List Pool.Move} {registrar : Registrar}
  {settings : Settings} {options : EmitOptions} {made : Plan} {host : Host} {error : SettingsError}

/-- Loading documents finds no fault with the settings. -/
theorem ofRoot_ne_settings {jobs : Nat} {root : Path} :
    (Loading.ofRoot moves jobs root host).1 ≠ .error (.settings error) := by
  unfold Loading.ofRoot
  split
  · simp
  · split <;> simp

/-- Planning finds no fault with the settings. -/
theorem plan_ne_settings : (plan moves settings host).1 ≠ .error (.settings error) := by
  unfold plan
  split
  · next failure after loaded =>
      intro same
      cases same
      exact ofRoot_ne_settings (congrArg Prod.fst loaded)
  · split <;> simp

/-- Writing units finds no fault with the settings. -/
theorem writeAll_ne_settings :
    (writeAll moves settings options made host).1 ≠ .error (.settings error) := by
  unfold writeAll
  split
  · simp
  · split <;> simp

/-- A run fails for its settings only if no options can be drawn from them. -/
theorem run_eq_settings_iff : (run schedule registrar settings host).1 =
    .error (.settings error) ↔ settings.emitOptions = .error error := by
  unfold run
  cases chosen : settings.emitOptions with
  | error failure => simp
  | ok options =>
      refine iff_of_false ?_ (by simp)
      simp only
      split
      · next failure after planned =>
          intro same
          cases same
          exact plan_ne_settings (congrArg Prod.fst planned)
      · exact writeAll_ne_settings

end Generation

namespace Settings

/-- Settings are resolved exactly if the base package is one and all names of methods are known, and
otherwise it is told which is wrong first. Resolved settings combine the overrides with the
configuration, the methods can be enabled by their names, and no run fails for them. -/
theorem resolve_exactly (cores : Nat) (available : 1 ≤ cores) (config : Config)
    (buildTool : Option String) (overrides : Overrides) :
    ((∃ settings, resolve cores config buildTool overrides = .ok settings) ↔
      Identifier.isPackage (overrides.package config) = true ∧
        ∀ name ∈ overrides.methodNames config, Boilerplate.IsKnown name) ∧
    (∀ error, resolve cores config buildTool overrides = .error error ↔
      Refuses config overrides error) ∧
    ∀ settings, resolve cores config buildTool overrides = .ok settings →
      Combines cores config buildTool overrides settings ∧
      (∃ methods, settings.emitOptions = .ok ⟨settings.basePackage, methods⟩ ∧
        Boilerplate.Enables settings.boilerplate methods) ∧
      ∀ schedule registrar host error,
        (Generation.run schedule registrar settings host).1 ≠ .error (.settings error) := by
  refine ⟨?_, fun error => resolve_eq_error_iff, fun settings resolved => ?_⟩
  · simp only [resolve_eq_ok_iff, exists_and_left, exists_eq, and_true]
  · obtain ⟨_, known, rfl⟩ := resolve_eq_ok_iff.mp resolved
    obtain ⟨methods, drawn, enables⟩ :=
      exists_emitOptions (combined cores config buildTool overrides) known
    refine ⟨combines_combined available, ⟨methods, drawn, enables⟩, ?_⟩
    intro schedule registrar host error failed
    have refused := Generation.run_eq_settings_iff.mp failed
    rw [drawn] at refused
    cases refused

/-- A configuration that leaves the number of workers open and names a method twice. -/
def openConfig : Config := { Config.default with boilerplate := ["sum_of_ten", "sum_of_ten"] }

/-- Another base package, and the echo. -/
def acmeOverrides : Overrides :=
  { Overrides.none with basePackage := some "org.acme", echo := true }

/-- The settings of the example are resolved, with its package and with a method that was named
twice. -/
theorem acme_resolved :
    1 ≤ 4 ∧ ∃ settings methods, resolve 4 openConfig none acmeOverrides = .ok settings ∧
      Combines 4 openConfig none acmeOverrides settings ∧
      settings.emitOptions = .ok ⟨"org.acme", methods⟩ ∧
      Boilerplate.Enables ["sum_of_ten", "sum_of_ten"] methods := by
  obtain ⟨resolves, _, outcome⟩ := resolve_exactly 4 (by decide) openConfig none acmeOverrides
  have known : Boilerplate.IsKnown "sum_of_ten" := ⟨.sumOfTen, rfl⟩
  obtain ⟨settings, resolved⟩ := resolves.mpr
    ⟨by decide +kernel, List.forall_mem_cons.mpr ⟨known, List.forall_mem_singleton.mpr known⟩⟩
  obtain ⟨combines, ⟨methods, drawn, enables⟩, _⟩ := outcome settings resolved
  have names : settings.boilerplate = ["sum_of_ten", "sum_of_ten"] := combines.boilerplate
  rw [combines.basePackage] at drawn
  rw [names] at enables
  exact ⟨by decide, settings, methods, resolved, combines, drawn, enables⟩

end Settings

end SchemaBeans
