import SchemaBeans.Bean
import SchemaBeans.Config

/-!
# Settings of a run

Settings are drawn from a configuration and what overrides it, and are checked
once: the base package must be a package, every boilerplate method must be
known, and both directories must be given.
-/

namespace SchemaBeans

/-- The settings of one run. -/
structure Settings where
  schemaRoot : Path
  outputDir : Path
  basePackage : String
  /-- The number of workers, at least one. -/
  jobs : Nat
  echo : Bool
  boilerplate : List String
  deriving DecidableEq, Repr

/-- Settings as far as they are given. -/
structure SettingsDraft where
  schemaRoot : Option Path
  outputDir : Option Path
  basePackage : Option String
  jobs : Option Nat
  echo : Bool
  boilerplate : List String
  deriving DecidableEq, Repr

/-- Why settings cannot be used. -/
inductive SettingsError where
  | invalidPackage (name : String)
  | unknownBoilerplate (name : String)
  | missingSchemaRoot
  | missingOutputDir
  deriving DecidableEq, Repr

/-- The wording of an error that is about a configured value. -/
def invalidConfig (reason : String) : String := "Invalid configuration: " ++ reason

/-- The wording of a settings error. -/
def SettingsError.message : SettingsError → String
  | invalidPackage name =>
      invalidConfig ("base package `" ++ name ++ "` is not a dot-separated list of identifiers")
  | unknownBoilerplate name => invalidConfig (Boilerplate.unknownMessage name)
  | missingSchemaRoot => "schema_root is required"
  | missingOutputDir => "output_dir is required"

/-- How sources are emitted with some settings. -/
def Settings.emitOptions (settings : Settings) : Except SettingsError EmitOptions :=
  match Boilerplate.select settings.boilerplate with
  | .error name => .error (.unknownBoilerplate name)
  | .ok boilerplate => .ok ⟨settings.basePackage, boilerplate⟩

/-- What the command line overrides. -/
structure Overrides where
  schemaRoot : Option Path
  output : Option Path
  basePackage : Option String
  jobs : Option Nat
  echo : Bool
  boilerplate : List String
  deriving DecidableEq, Repr

/-- Nothing overridden. -/
def Overrides.none : Overrides := ⟨.none, .none, .none, .none, false, []⟩

/-- The number of workers for a requested number; zero asks for the available cores. -/
def effectiveJobs (cores requested : Nat) : Nat := if 0 < requested then requested else max cores 1

namespace SettingsDraft

/-- The settings that a configuration gives. -/
def ofConfig (config : Config) (buildTool : Option String) : SettingsDraft :=
  { schemaRoot := some config.schemaRoot
    outputDir := some (config.resolvedOutput buildTool)
    basePackage := some config.basePackage
    jobs := some config.jobs
    echo := config.echo
    boilerplate := config.boilerplate }

/-- The settings with what is overridden. A list of boilerplate methods overrides unless it is
empty, and the echo can only be switched on. -/
def override (draft : SettingsDraft) (overrides : Overrides) : SettingsDraft :=
  { schemaRoot := overrides.schemaRoot.or draft.schemaRoot
    outputDir := overrides.output.or draft.outputDir
    basePackage := overrides.basePackage.or draft.basePackage
    jobs := overrides.jobs.or draft.jobs
    echo := overrides.echo || draft.echo
    boilerplate :=
      if overrides.boilerplate.isEmpty then draft.boilerplate else overrides.boilerplate }

/-- The settings of a draft, for a number of available cores. -/
def build (cores : Nat) (draft : SettingsDraft) : Except SettingsError Settings :=
  let basePackage := draft.basePackage.getD ""
  if !Identifier.isPackage basePackage then .error (.invalidPackage basePackage)
  else
    match draft.schemaRoot, draft.outputDir, Boilerplate.select draft.boilerplate with
    | none, _, _ => .error .missingSchemaRoot
    | some _, none, _ => .error .missingOutputDir
    | some _, some _, .error name => .error (.unknownBoilerplate name)
    | some schemaRoot, some outputDir, .ok _ =>
        .ok
          { schemaRoot
            outputDir
            basePackage
            jobs := effectiveJobs cores (draft.jobs.getD 0)
            echo := draft.echo
            boilerplate := draft.boilerplate }

end SettingsDraft

/-- The settings of a configuration with what is overridden. -/
def Settings.resolve (cores : Nat) (config : Config) (buildTool : Option String)
    (overrides : Overrides) : Except SettingsError Settings :=
  ((SettingsDraft.ofConfig config buildTool).override overrides).build cores

end SchemaBeans
